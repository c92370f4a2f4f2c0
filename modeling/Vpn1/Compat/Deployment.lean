import Vpn1.Compat.Migration

/-! `deployment.toml`: loading it, and migrating its text by putting a version marker in front. The
migration scans lines where loading parses. -/

namespace Vpn1.Compat.Formats

open Traced

variable {β : Type} (fmt : Formats β) (rel : Release)

section Deployment

/-- The settings a release accepts: no newer schema, and both bandwidths or none. -/
def validate (cfg : DeploymentConfig) : Except CompatError Unit :=
  if rel.deployment < cfg.schemaVersion then
    .error (.unsupportedSchema .deploymentToml cfg.schemaVersion rel.deployment)
  else if cfg.hysteria2.upMbps.isSome ≠ cfg.hysteria2.downMbps.isSome then .error .parse
  else .ok ()

def loadText (text : String) : Except CompatError DeploymentConfig := do
  let some cfg := fmt.toml text | throw .parse
  validate rel cfg
  return cfg

/-- `DeploymentConfig::load`. -/
def loadDeployment (file : Option β) (read : Bool) : Except CompatError DeploymentConfig := do
  let some bytes := file | throw .io
  if !read then throw .io
  let some text := fmt.text bytes | throw .io
  fmt.loadText rel text

/-- `str::lines`: a last empty line is none, and a line end may be preceded by a carriage return. -/
def lines (text : String) : List (List Char) :=
  let parts := text.toList.splitOn '\n'
  let parts := if parts.getLast? = some [] then parts.dropLast else parts
  parts.map fun line => if line.getLast? = some '\r' then line.dropLast else line

/-- Some line starts with `schema_version`. -/
def scansVersioned (text : String) : Bool :=
  (lines text).any fun line => "schema_version".toList.isPrefixOf (line.dropWhile isWhiteSpace)

def schemaMarker : String := "schema_version = " ++ rel.deployment.toNat.repr

def migrateDeploymentTomlText (original : String) : Option String :=
  if scansVersioned original then none else some (schemaMarker rel ++ "\n" ++ original)

/-- The checked text that replaces `deployment.toml`; `none` if there is nothing to do. -/
def migratedText (original : String) : Except CompatError (Option String) := do
  let originalCfg ← fmt.loadText rel original
  match migrateDeploymentTomlText rel original with
  | none => return none
  | some patched =>
    let migratedCfg ← fmt.loadText rel patched
    if migratedCfg.schemaVersion ≠ rel.deployment then throw .parse
    -- every setting other than the version must be unchanged
    if { migratedCfg with schemaVersion := 0 } ≠ { originalCfg with schemaVersion := 0 } then
      throw .parse
    return some patched

def migrateDeploymentToml (a : MigrateAnswers β) :
    Prog (Disk β) Unit CompatError MigrationOutcome := do
  match ← Prog.look (fun d => d.live .deploymentToml) with
  | none => return .missing
  | some _ =>
    let bytes ← readFile .deploymentToml a.read
    let some text := fmt.text bytes | Prog.fail .io
    match ← Prog.lift (fmt.migratedText rel text) with
    | none => return .alreadyCurrent
    | some patched =>
      let backup ← backupBeforeMutate .deploymentToml a.backup
      atomicWrite .deploymentToml (fmt.ofText patched) a.replace
      return .migrated backup

end Deployment

section Laws

variable {fmt rel}

/-- A file loads if it can be read as text that does. -/
theorem loadDeployment_ok_iff {file : Option β} {read : Bool} {cfg : DeploymentConfig} :
    fmt.loadDeployment rel file read = .ok cfg ↔
      read = true ∧ ∃ bytes text, file = some bytes ∧ fmt.text bytes = some text ∧
        fmt.loadText rel text = .ok cfg := by
  unfold loadDeployment
  cases file with
  | none => simp [throw, throwThe, MonadExceptOf.throw]
  | some bytes =>
    cases read with
    | false => simp [throw, throwThe, MonadExceptOf.throw]
    | true =>
      cases htext : fmt.text bytes with
      | none => simp [htext, throw, throwThe, MonadExceptOf.throw]
      | some text => simp [htext]

private theorem toList_schemaMarker : (schemaMarker rel).toList =
    "schema_version".toList ++ (" = ".toList ++ Nat.toDigits 10 rel.deployment.toNat) := by
  have hword : "schema_version = ".toList = "schema_version".toList ++ " = ".toList := by decide
  have hdigits : rel.deployment.toNat.repr.toList = Nat.toDigits 10 rel.deployment.toNat :=
    Nat.toList_repr
  calc (schemaMarker rel).toList
      = "schema_version = ".toList ++ rel.deployment.toNat.repr.toList := String.toList_append
    _ = ("schema_version".toList ++ " = ".toList) ++ Nat.toDigits 10 rel.deployment.toNat :=
        congrArg₂ (· ++ ·) hword hdigits
    _ = "schema_version".toList ++ (" = ".toList ++ Nat.toDigits 10 rel.deployment.toNat) :=
        List.append_assoc _ _ _

private theorem not_mem_marker {c : Char}
    (hword : c ∉ "schema_version".toList ∧ c ∉ " = ".toList) (hdigit : c.isDigit = false) :
    c ∉ (schemaMarker rel).toList := by
  rw [toList_schemaMarker, List.mem_append, List.mem_append]
  rintro (hc | hc | hc)
  · exact hword.1 hc
  · exact hword.2 hc
  · exact absurd (Nat.isDigit_of_mem_toDigits (by decide) (by decide) hc) (by simp [hdigit])

private theorem marker_mem_lines (text : String) :
    (schemaMarker rel).toList ∈ lines (schemaMarker rel ++ "\n" ++ text) := by
  have hnewline : ∀ c ∈ (schemaMarker rel).toList, (c == '\n') = false := by
    intro c hc
    have hne : c ≠ '\n' := fun h => not_mem_marker (by decide) (by decide) (h ▸ hc)
    simpa using hne
  have hreturn : (schemaMarker rel).toList.getLast? ≠ some '\r' := fun h =>
    not_mem_marker (by decide) (by decide) (List.mem_of_getLast? h)
  have hrest : text.toList.splitOn '\n' ≠ [] := List.splitOn_ne_nil _ _
  have hsplit : (schemaMarker rel ++ "\n" ++ text).toList.splitOn '\n' =
      (schemaMarker rel).toList :: text.toList.splitOn '\n' := by
    simp only [String.toList_append, List.append_assoc]
    exact List.splitOnP_append_cons_of_forall_mem hnewline '\n' (by decide) _
  simp only [lines, hsplit, List.dropLast_cons_of_ne_nil hrest]
  refine List.mem_map.mpr ⟨(schemaMarker rel).toList, ?_, if_neg hreturn⟩
  split_ifs <;> exact List.mem_cons_self

/-- Text that was migrated is not migrated again. -/
theorem scansVersioned_marker (text : String) :
    scansVersioned (schemaMarker rel ++ "\n" ++ text) = true := by
  refine List.any_eq_true.mpr ⟨_, marker_mem_lines text, ?_⟩
  have hword : ∀ rest : List Char, ("schema_version".toList ++ rest).dropWhile isWhiteSpace =
      "schema_version".toList ++ rest := by
    intro rest
    rfl
  rw [toList_schemaMarker, hword]
  exact List.isPrefixOf_iff_prefix.mpr (List.prefix_append _ _)

theorem loadText_ok_iff {text : String} {cfg : DeploymentConfig} :
    fmt.loadText rel text = .ok cfg ↔ fmt.toml text = some cfg ∧ validate rel cfg = .ok () := by
  unfold loadText
  cases htoml : fmt.toml text with
  | none => simp [throw, throwThe, MonadExceptOf.throw]
  | some found =>
    simp only [Fallible.bind_eq_ok, Option.some.injEq]
    constructor
    · rintro ⟨_, hvalid, hfound⟩
      obtain rfl := Except.ok.inj hfound
      exact ⟨rfl, hvalid⟩
    · rintro ⟨rfl, hvalid⟩
      exact ⟨(), hvalid, rfl⟩

/-- The checks of a migration: the old text loads; it counts as migrated already, or the patched
text loads with the same settings at the supported version. -/
theorem migratedText_ok {text : String} {out : Option String}
    (h : fmt.migratedText rel text = .ok out) :
    ∃ cfg, fmt.loadText rel text = .ok cfg ∧
      ((scansVersioned text = true ∧ out = none) ∨
        (scansVersioned text = false ∧ out = some (schemaMarker rel ++ "\n" ++ text) ∧
          fmt.loadText rel (schemaMarker rel ++ "\n" ++ text) =
            .ok { cfg with schemaVersion := rel.deployment })) := by
  obtain ⟨cfg, hload, h⟩ := Fallible.bind_eq_ok.mp h
  refine ⟨cfg, hload, ?_⟩
  unfold migrateDeploymentTomlText at h
  cases hscan : scansVersioned text with
  | true =>
    rw [hscan, if_pos rfl] at h
    exact .inl ⟨rfl, (Except.ok.inj h).symm⟩
  | false =>
    simp only [hscan, Bool.false_eq_true, if_false] at h
    obtain ⟨migrated, hpatched, h⟩ := Fallible.bind_eq_ok.mp h
    split at h
    · cases h
    · next hversion =>
      split at h
      · cases h
      · next hsettings =>
        have hsame : { migrated with schemaVersion := 0 } = { cfg with schemaVersion := 0 } :=
          not_not.mp hsettings
        have hmigrated : migrated = { cfg with schemaVersion := rel.deployment } := by
          obtain ⟨version, _, _, _, _, _, _, _, _⟩ := migrated
          obtain rfl : version = rel.deployment := not_not.mp hversion
          simp_all
        exact .inr ⟨rfl, (Except.ok.inj h).symm, by rw [hpatched, hmigrated]⟩

theorem migratedText_of_scans {text : String} {cfg : DeploymentConfig}
    (hload : fmt.loadText rel text = .ok cfg) (hscan : scansVersioned text = true) :
    fmt.migratedText rel text = .ok none := by
  simp [migratedText, hload, migrateDeploymentTomlText, hscan, pure, Except.pure]

theorem migratedText_of_patched {text : String} {cfg : DeploymentConfig}
    (hload : fmt.loadText rel text = .ok cfg) (hscan : scansVersioned text = false)
    (hpatched : fmt.loadText rel (schemaMarker rel ++ "\n" ++ text) =
      .ok { cfg with schemaVersion := rel.deployment }) :
    fmt.migratedText rel text = .ok (some (schemaMarker rel ++ "\n" ++ text)) := by
  simp [migratedText, hload, migrateDeploymentTomlText, hscan, hpatched, pure, Except.pure]

variable (fmt rel) in
/-- How a migration of `deployment.toml` can end. -/
inductive DeploymentMigration (d : Disk β) : Except CompatError MigrationOutcome → Disk β → Prop
  | missing (hf : d.live .deploymentToml = none) : DeploymentMigration d (.ok .missing) d
  | alreadyCurrent {bytes : β} {text : String} {cfg : DeploymentConfig}
      (hf : d.live .deploymentToml = some bytes) (htext : fmt.text bytes = some text)
      (hload : fmt.loadText rel text = .ok cfg) (hscan : scansVersioned text = true) :
      DeploymentMigration d (.ok .alreadyCurrent) d
  | migrated {bytes : β} {text : String} {cfg : DeploymentConfig} {backup : StatePath} {t : Disk β}
      (hf : d.live .deploymentToml = some bytes) (htext : fmt.text bytes = some text)
      (hload : fmt.loadText rel text = .ok cfg)
      (hplan : fmt.migratedText rel text = .ok (some (schemaMarker rel ++ "\n" ++ text)))
      (hpatched : fmt.loadText rel (schemaMarker rel ++ "\n" ++ text) =
        .ok { cfg with schemaVersion := rel.deployment })
      (ht : t.live = Function.update d.live .deploymentToml
        (some (fmt.ofText (schemaMarker rel ++ "\n" ++ text)))) :
      DeploymentMigration d (.ok (.migrated backup)) t
  | failed {e : CompatError} {t : Disk β} (ht : t.live = d.live) : DeploymentMigration d (.error e) t

theorem migrateDeploymentToml_wp (a : MigrateAnswers β) (d : Disk β) :
    Wp (fmt.migrateDeploymentToml rel a) d (fun _ _ => True) (DeploymentMigration fmt rel d) := by
  unfold migrateDeploymentToml
  rw [wp_bind, wp_look]
  cases hf : d.live .deploymentToml with
  | none => exact wp_pure.mpr (.missing hf)
  | some bytes =>
    dsimp only
    rw [wp_bind]
    refine wp_readFile (fun read hread _ => ?_) (.failed rfl)
    obtain rfl : bytes = read := Option.some.inj (hf.symm.trans hread)
    dsimp only
    cases htext : fmt.text bytes with
    | none => exact wp_fail.mpr (.failed rfl)
    | some text =>
      dsimp only
      rw [wp_bind, wp_lift]
      cases hplan : fmt.migratedText rel text with
      | error e => exact .failed rfl
      | ok out =>
        obtain ⟨cfg, hload, ⟨hscan, rfl⟩ | ⟨_, rfl, hpatched⟩⟩ := migratedText_ok hplan
        · exact wp_pure.mpr (.alreadyCurrent hf htext hload hscan)
        · dsimp only
          rw [wp_bind]
          refine (backupBeforeMutate_wp .deploymentToml a.backup d).mono (fun _ _ _ => trivial)
            fun r t ht => ?_
          cases r with
          | error e => exact .failed ht
          | ok backup =>
            dsimp only
            rw [wp_bind]
            refine (atomicWrite_wp .deploymentToml _ a.replace t).mono (fun _ _ _ => trivial)
              fun r u hu => ?_
            cases r with
            | error e => exact .failed (hu.trans ht)
            | ok _ =>
              rw [Disk.replaced, ht] at hu
              exact wp_pure.mpr (.migrated hf htext hload hplan hpatched hu)

theorem DeploymentMigration.live_of_ne {d t : Disk β} {r : Except CompatError MigrationOutcome}
    (h : DeploymentMigration fmt rel d r t) {g : Location} (hg : g ≠ .deploymentToml) :
    t.live g = d.live g := by
  cases h with
  | missing | alreadyCurrent => rfl
  | migrated hf htext hload hplan hpatched ht => simp [ht, hg]
  | failed ht => rw [ht]

/-- Text with a version line is left alone, whether it loads or not. -/
theorem migrateDeploymentToml_settled {d : Disk β} {bytes : β} {text : String}
    (hf : d.live .deploymentToml = some bytes) (htext : fmt.text bytes = some text)
    (hscan : scansVersioned text = true) (a : MigrateAnswers β) :
    (fmt.migrateDeploymentToml rel a d).final = d := by
  have hrun : Wp (fmt.migrateDeploymentToml rel a) d (fun _ _ => True) fun _ t => t = d := by
    unfold migrateDeploymentToml
    rw [wp_bind, wp_look, hf]
    dsimp only
    rw [wp_bind]
    refine wp_readFile (fun read hread _ => ?_) rfl
    obtain rfl : bytes = read := Option.some.inj (hf.symm.trans hread)
    simp only [htext]
    rw [wp_bind, wp_lift]
    cases hplan : fmt.migratedText rel text with
    | error e => rfl
    | ok out =>
      obtain ⟨cfg, _, ⟨_, rfl⟩ | ⟨hno, _⟩⟩ := migratedText_ok hplan
      · exact wp_pure.mpr rfl
      · rw [hscan] at hno
        cases hno
  exact hrun.2

/-- Nothing but a failing step keeps text that passes the checks from being migrated. -/
theorem migrateDeploymentToml_allDone {d : Disk β} {bytes : β} {text : String} {out : Option String}
    (hf : d.live .deploymentToml = some bytes) (htext : fmt.text bytes = some text)
    (hplan : fmt.migratedText rel text = .ok out) :
    ∃ outcome, (fmt.migrateDeploymentToml rel .allDone d).result = .ok outcome := by
  have hrun : Wp (fmt.migrateDeploymentToml rel .allDone) d (fun _ _ => True) fun r _ =>
      ∃ outcome, r = .ok outcome := by
    cases out <;>
      simp [migrateDeploymentToml, MigrateAnswers.allDone, readFile, hf, htext, hplan,
        backupBeforeMutate, writeFileMode, atomicWrite, replaceFile]
  exact hrun.2

theorem migrateDeploymentToml_patched {d : Disk β} {bytes : β} {text patched : String}
    (hf : d.live .deploymentToml = some bytes) (htext : fmt.text bytes = some text)
    (hplan : fmt.migratedText rel text = .ok (some patched)) :
    (fmt.migrateDeploymentToml rel .allDone d).final.live .deploymentToml =
      some (fmt.ofText patched) := by
  have hrun : Wp (fmt.migrateDeploymentToml rel .allDone) d (fun _ _ => True) fun _ t =>
      t.live .deploymentToml = some (fmt.ofText patched) := by
    simp [migrateDeploymentToml, MigrateAnswers.allDone, readFile, hf, htext, hplan,
      backupBeforeMutate, writeFileMode, atomicWrite, replaceFile]
  exact hrun.2

end Laws

end Vpn1.Compat.Formats
