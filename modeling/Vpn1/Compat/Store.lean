import Mathlib.Algebra.Group.Int.Defs
import Vpn1.Lib.Fallible
import Vpn1.Lib.Json
import Vpn1.Compat.Model

/-! The user store: schema detection and parsing over any readers of its two shapes, and the readers
of its JSON. These follow the derived serde readers, which take a record as an object or as the
sequence of its fields. -/

namespace Vpn1.Compat

def usersSchemaVersion : UInt32 := 1

def deploymentSchemaVersion : UInt32 := 1

structure Release where
  deployment : UInt32
  users : UInt32
  deriving DecidableEq, Repr

def thisRelease : Release := ⟨deploymentSchemaVersion, usersSchemaVersion⟩

inductive VersionedFile
  | usersJson
  | deploymentToml
  deriving DecidableEq, Repr

inductive CompatError
  | io
  | parse
  | configValidationFailed
  | wrongTransportForEndpoint
  | unsupportedSchema (what : VersionedFile) (found maxSupported : UInt32)
  deriving DecidableEq, Repr

structure UsersFile where
  schemaVersion : UInt32
  users : List CompatUser
  deriving DecidableEq, Repr

inductive UsersSchemaState
  | missing
  | legacy
  | current
  | future (version : UInt32)
  | corrupted
  deriving DecidableEq, Repr

/-- serde_json as given functions over a type `β` of byte strings; its round trip is assumed. -/
structure UserFormats (β : Type) where
  usersFile : β → Option UsersFile
  legacyUsers : β → Option (List CompatUser)
  encodeUsers : UsersFile → β
  usersFile_encodeUsers : ∀ f, usersFile (encodeUsers f) = some f

attribute [simp] UserFormats.usersFile_encodeUsers

namespace UserFormats

variable {β : Type} (fmt : UserFormats β) (rel : Release)

def detectUsersBytes (bytes : β) : UsersSchemaState :=
  match fmt.usersFile bytes with
  | some versioned =>
    if rel.users < versioned.schemaVersion then .future versioned.schemaVersion else .current
  | none => if (fmt.legacyUsers bytes).isSome then .legacy else .corrupted

def detectUsersSchema (file : Option β) (read : Bool) : UsersSchemaState :=
  match file with
  | none => .missing
  | some bytes => if read then fmt.detectUsersBytes rel bytes else .corrupted

def parseUsersBytes (bytes : β) : Except CompatError (List CompatUser) :=
  match fmt.usersFile bytes with
  | some versioned =>
    if rel.users < versioned.schemaVersion then
      .error (.unsupportedSchema .usersJson versioned.schemaVersion rel.users)
    else .ok versioned.users
  | none =>
    match fmt.legacyUsers bytes with
    | some legacy => .ok legacy
    | none => .error .parse

def loadUsers (file : Option β) (read : Bool) : Except CompatError (List CompatUser) :=
  match file with
  | none => .ok []
  | some bytes => if read then fmt.parseUsersBytes rel bytes else .error .io

variable {fmt rel} {bytes : β}

theorem detect_current_or_legacy_iff :
    (fmt.parseUsersBytes rel bytes).isOk = true ↔
      fmt.detectUsersBytes rel bytes = .legacy ∨ fmt.detectUsersBytes rel bytes = .current := by
  unfold parseUsersBytes detectUsersBytes
  cases fmt.usersFile bytes with
  | some versioned =>
    dsimp only
    split_ifs <;> simp
  | none => cases fmt.legacyUsers bytes <;> simp

theorem detect_future_iff {n : UInt32} :
    fmt.parseUsersBytes rel bytes = .error (.unsupportedSchema .usersJson n rel.users) ↔
      fmt.detectUsersBytes rel bytes = .future n := by
  unfold parseUsersBytes detectUsersBytes
  cases fmt.usersFile bytes with
  | some versioned =>
    dsimp only
    split_ifs <;> simp
  | none => cases fmt.legacyUsers bytes <;> simp

theorem detectUsersBytes_ne_missing : fmt.detectUsersBytes rel bytes ≠ .missing := by
  unfold detectUsersBytes
  cases fmt.usersFile bytes with
  | some versioned =>
    dsimp only
    split_ifs <;> simp
  | none =>
    dsimp only
    split_ifs <;> simp

/-- What every save writes is current and loads as the list that was saved. -/
theorem detect_encodeUsers (users : List CompatUser) :
    fmt.detectUsersBytes rel (fmt.encodeUsers ⟨rel.users, users⟩) = .current := by
  simp [detectUsersBytes]

theorem parse_encodeUsers (users : List CompatUser) :
    fmt.parseUsersBytes rel (fmt.encodeUsers ⟨rel.users, users⟩) = .ok users := by
  simp [parseUsersBytes]

/-- A legacy store is one the envelope does not parse and the bare array does. -/
theorem legacy_of_detect (h : fmt.detectUsersBytes rel bytes = .legacy) :
    ∃ legacy, fmt.legacyUsers bytes = some legacy ∧
      fmt.parseUsersBytes rel bytes = .ok legacy := by
  unfold detectUsersBytes at h
  cases hfile : fmt.usersFile bytes with
  | some versioned =>
    rw [hfile] at h
    dsimp only at h
    split_ifs at h
  | none =>
    cases hlegacy : fmt.legacyUsers bytes with
    | none => simp [hfile, hlegacy] at h
    | some legacy => exact ⟨legacy, rfl, by simp [parseUsersBytes, hfile, hlegacy]⟩

end UserFormats

def CompatUser.toJson (u : CompatUser) : Json :=
  .obj [
    ("id", .str u.id),
    ("name", .str u.name),
    ("enabled", .bool u.enabled),
    ("vless_uuid", .str u.vlessUuid),
    ("hysteria2_password", .str u.hysteria2Password),
    ("subscription_token_hash_hex", .str u.subscriptionTokenHashHex),
    ("created_at", .num u.createdAt.toInt),
    ("expires_at", match u.expiresAt with
      | some exp => .num exp.toInt
      | none => .null)]

def UsersFile.toJson (f : UsersFile) : Json :=
  .obj [("schema_version", .num f.schemaVersion.toNat), ("users", .arr (f.users.map (·.toJson)))]

/-- A field that may occur once; a repeated field is an error. -/
def soleField (key : String) (fields : List (String × Json)) : Option (Option Json) :=
  match fields.filter (fun f => f.1 = key) with
  | [] => some none
  | [f] => some (some f.2)
  | _ => none

def requiredField (key : String) (fields : List (String × Json)) : Option Json :=
  (soleField key fields).join

def asString : Json → Option String
  | .str s => some s
  | _ => none

def asBool : Json → Option Bool
  | .bool b => some b
  | _ => none

def asI64 : Json → Option Int64
  | .num n => if -2 ^ 63 ≤ n ∧ n < 2 ^ 63 then some (Int64.ofInt n) else none
  | _ => none

def asU32 : Json → Option UInt32
  | .num n => if 0 ≤ n ∧ n < 2 ^ 32 then some (UInt32.ofNat n.toNat) else none
  | _ => none

def asOptionI64 : Json → Option (Option Int64)
  | .null => some none
  | j => (asI64 j).map some

def CompatUser.ofParts (id name enabled uuid password hash created expires : Json) :
    Option CompatUser := do
  return {
    id := ← asString id
    name := ← asString name
    enabled := ← asBool enabled
    vlessUuid := ← asString uuid
    hysteria2Password := ← asString password
    subscriptionTokenHashHex := ← asString hash
    createdAt := ← asI64 created
    expiresAt := ← asOptionI64 expires }

def CompatUser.ofJson : Json → Option CompatUser
  | .obj fields => do
    -- an absent `expires_at` reads as `None`, like an explicit null
    CompatUser.ofParts (← requiredField "id" fields) (← requiredField "name" fields)
      (← requiredField "enabled" fields) (← requiredField "vless_uuid" fields)
      (← requiredField "hysteria2_password" fields)
      (← requiredField "subscription_token_hash_hex" fields)
      (← requiredField "created_at" fields) ((← soleField "expires_at" fields).getD .null)
  | .arr [id, name, enabled, uuid, password, hash, created, expires] =>
    CompatUser.ofParts id name enabled uuid password hash created expires
  | _ => none

def usersOfJson : Json → Option (List CompatUser)
  | .arr items => items.mapM CompatUser.ofJson
  | _ => none

def UsersFile.ofParts (version users : Json) : Option UsersFile := do
  return { schemaVersion := ← asU32 version, users := ← usersOfJson users }

def UsersFile.ofJson : Json → Option UsersFile
  | .obj fields => do
    UsersFile.ofParts (← requiredField "schema_version" fields) (← requiredField "users" fields)
  | .arr [version, users] => UsersFile.ofParts version users
  | _ => none

private theorem asI64_toInt (n : Int64) : asI64 (.num n.toInt) = some n := by
  have hlo : -2 ^ 63 ≤ n.toInt := Int64.le_toInt n
  have hhi : n.toInt < 2 ^ 63 := Int64.toInt_lt n
  simp only [asI64, if_pos (And.intro hlo hhi), Int64.ofInt_toInt]

private theorem asU32_toNat (n : UInt32) : asU32 (.num n.toNat) = some n := by
  have hlt : (n.toNat : Int) < 2 ^ 32 := by exact_mod_cast n.toNat_lt
  have hpos : (0 : Int) ≤ n.toNat := Int.natCast_nonneg _
  simp only [asU32, if_pos (And.intro hpos hlt), Int.toNat_natCast, UInt32.ofNat_toNat]

@[simp] theorem CompatUser.ofJson_toJson (u : CompatUser) : CompatUser.ofJson u.toJson = some u := by
  obtain ⟨id, name, enabled, uuid, password, hash, created, expires⟩ := u
  cases expires <;>
    simp [CompatUser.toJson, CompatUser.ofJson, CompatUser.ofParts, requiredField, soleField,
      asString, asBool, asOptionI64, asI64_toInt]

private theorem mapM_ofJson_toJson (users : List CompatUser) :
    (users.map (·.toJson)).mapM CompatUser.ofJson = some users := by
  induction users with
  | nil => rfl
  | cons u users ih => simp [ih]

private theorem UsersFile.ofJson_obj (version users : Json) :
    UsersFile.ofJson (.obj [("schema_version", version), ("users", users)]) =
      UsersFile.ofParts version users := by
  have hversion : requiredField "schema_version"
      [("schema_version", version), ("users", users)] = some version := by
    simp [requiredField, soleField]
  have husers : requiredField "users" [("schema_version", version), ("users", users)] =
      some users := by
    simp [requiredField, soleField]
  simp only [UsersFile.ofJson, hversion, husers, Option.bind_eq_bind, Option.bind_some]

@[simp] theorem UsersFile.ofJson_toJson (f : UsersFile) : UsersFile.ofJson f.toJson = some f := by
  obtain ⟨version, users⟩ := f
  have hversion := asU32_toNat version
  have husers : usersOfJson (.arr (users.map (·.toJson))) = some users := mapM_ofJson_toJson users
  rw [UsersFile.toJson, UsersFile.ofJson_obj]
  simp only [UsersFile.ofParts, hversion, husers, Option.bind_eq_bind, Option.bind_some,
    Option.pure_def]

def jsonUsers : UserFormats (Option Json) where
  usersFile bytes := bytes.bind UsersFile.ofJson
  legacyUsers bytes := bytes.bind usersOfJson
  encodeUsers file := some file.toJson
  usersFile_encodeUsers file := by rw [Option.bind_some, UsersFile.ofJson_toJson]

def detectUsersBytes (bytes : Option Json) : UsersSchemaState :=
  jsonUsers.detectUsersBytes thisRelease bytes

def parseUsersBytes (bytes : Option Json) : Except CompatError (List CompatUser) :=
  jsonUsers.parseUsersBytes thisRelease bytes

def savedUsers (users : List CompatUser) : Json :=
  UsersFile.toJson ⟨usersSchemaVersion, users⟩

/-- A saved store loads as the list that was saved. -/
@[simp] theorem parseUsersBytes_savedUsers (users : List CompatUser) :
    parseUsersBytes (some (savedUsers users)) = .ok users :=
  UserFormats.parse_encodeUsers users

/-- A store without a version reads as the list it is. -/
theorem parseUsersBytes_of_legacy {bytes : Option Json} {legacy : List CompatUser}
    (hdetect : detectUsersBytes bytes = .legacy) (hlegacy : bytes.bind usersOfJson = some legacy) :
    parseUsersBytes bytes = .ok legacy := by
  obtain ⟨found, hfound, hparse⟩ := UserFormats.legacy_of_detect hdetect
  obtain rfl : legacy = found := Option.some.inj (hlegacy.symm.trans hfound)
  exact hparse

end Vpn1.Compat
