import Mathlib.Data.List.DropRight
import Mathlib.Data.List.TakeWhile

/-! Users, server parameters and deployment settings of the compatibility data plane. -/

namespace Vpn1.Compat

structure CompatUser where
  id : String
  name : String
  enabled : Bool
  vlessUuid : String
  hysteria2Password : String
  subscriptionTokenHashHex : String
  createdAt : Int64
  expiresAt : Option Int64
  deriving DecidableEq, Repr

def CompatUser.isActive (u : CompatUser) (now : Int64) : Bool :=
  u.enabled && (u.expiresAt.map (fun exp => decide (now < exp))).getD true

structure RealityServerParams where
  privateKeyHex : String
  publicKeyHex : String
  shortIds : List String
  handshakeServer : String
  handshakePort : UInt16
  deriving DecidableEq, Repr

structure Hysteria2ServerParams where
  tlsCertPath : String
  tlsKeyPath : String
  obfsPassword : Option String
  masqueradeDirPath : Option String
  upMbps : Option UInt32
  downMbps : Option UInt32
  deriving DecidableEq, Repr

structure ServerPorts where
  vlessRealityPort : UInt16
  hysteria2Port : UInt16
  deriving DecidableEq, Repr

structure RealitySection where
  listenPort : UInt16
  handshakeServer : String
  handshakePort : UInt16
  deriving DecidableEq, Repr

structure Hysteria2Section where
  listenPort : UInt16
  upMbps : Option UInt32
  downMbps : Option UInt32
  deriving DecidableEq, Repr

structure SubscriptionSection where
  listenPort : UInt16
  publicPort : UInt16
  deriving DecidableEq, Repr

structure UdpProbeSection where
  ipv4Resolvers : List String
  ipv6Resolvers : List String
  retries : UInt64
  timeoutMs : UInt64
  delayMs : UInt64
  deriving DecidableEq, Repr

/-- The settings of `deployment.toml`. A file without a version reads as version 0. -/
structure DeploymentConfig where
  schemaVersion : UInt32
  publicHost : String
  subscriptionHost : String
  reality : RealitySection
  hysteria2 : Hysteria2Section
  subscription : SubscriptionSection
  udpProbe : Option UdpProbeSection
  stateDir : String
  singboxBinary : String
  deriving DecidableEq, Repr

def DeploymentConfig.hysteriaDir (cfg : DeploymentConfig) : String :=
  cfg.stateDir ++ "/hysteria"

def DeploymentConfig.ports (cfg : DeploymentConfig) : ServerPorts :=
  ⟨cfg.reality.listenPort, cfg.hysteria2.listenPort⟩

/-- The characters `str::trim` strips: Unicode `White_Space`. -/
def isWhiteSpace (c : Char) : Bool :=
  let n := c.toNat
  (0x09 ≤ n && n ≤ 0x0d) || n == 0x20 || n == 0x85 || n == 0xa0 || n == 0x1680 ||
    (0x2000 ≤ n && n ≤ 0x200a) || n == 0x2028 || n == 0x2029 || n == 0x202f || n == 0x205f ||
    n == 0x3000

def trim (s : String) : String :=
  String.ofList ((s.toList.dropWhile isWhiteSpace).rdropWhile isWhiteSpace)

@[simp] theorem trim_trim (s : String) : trim (trim s) = trim s := by
  have hhead : ((s.toList.dropWhile isWhiteSpace).rdropWhile isWhiteSpace).dropWhile isWhiteSpace =
      (s.toList.dropWhile isWhiteSpace).rdropWhile isWhiteSpace := by
    rw [List.dropWhile_eq_self_iff]
    intro hl
    -- what is left is an initial segment of a list that already starts past the white space
    have hpre := List.rdropWhile_prefix isWhiteSpace (l := s.toList.dropWhile isWhiteSpace)
    have hne := List.dropWhile_eq_self_iff.mp (List.dropWhile_idempotent isWhiteSpace s.toList)
      (hl.trans_le hpre.length_le)
    rwa [← hpre.getElem hl] at hne
  simp only [trim, String.toList_ofList, hhead]
  rw [List.rdropWhile_idempotent]

theorem trim_eq_self {s : String} (hs : ∀ c ∈ s.toList, isWhiteSpace c = false) : trim s = s := by
  unfold trim
  rw [List.dropWhile_eq_self_iff.mpr fun hl => by simp [hs _ (List.getElem_mem hl)]]
  rw [List.rdropWhile_eq_self_iff.mpr fun hl => by simp [hs _ (List.getLast_mem hl)]]
  exact String.ofList_toList

end Vpn1.Compat
