import FerrumProxy.NetAddress
import FerrumProxy.TextStrings

/-!
# The configuration file's data model

The records of `config.rs` with the nested ones of `firewall.rs` and `ip_block.rs`.  `u16` values
are `UInt16`, `u64` and `usize` values natural numbers, `f64` values rationals and paths texts.  A
field's default is the one serde fills in.
-/

namespace FerrumProxy

open Str

/-- The transport of a listener or a target. -/
inductive Protocol where
  | tcp
  | udp
  deriving DecidableEq, Repr

/-- What a Bedrock listener speaks. -/
inductive BedrockTransport where
  | raknet
  | nethernet
  deriving DecidableEq, Repr

/-- One upstream.  The last four fields are marked `#[serde(skip)]`: they are
neither written to the file nor read from it. -/
structure ProxyTarget where
  host : Text
  tcp : Option UInt16 := none
  udp : Option UInt16 := none
  urlProtocol : Option Text := none
  urlBasePath : Option Text := none
  mountPath : Option Text := none
  originalUrl : Option Text := none
  deriving DecidableEq

/-- Targets for a host name and a path. -/
structure HttpTargetMapping where
  hostname : Option Text := none
  path : Text
  target : Option ProxyTarget := none
  targets : List ProxyTarget := []

/-- `https` of a listener. -/
structure ListenerHttpsConfig where
  http3 : Bool := false
  enabled : Bool := false
  autoDetect : Bool := true
  autoProvision : Bool := false
  letsEncryptDomain : Option Text := none
  letsEncryptDomains : List Text := []
  letsEncryptEmail : Option Text := none
  certPath : Option Text := none
  keyPath : Option Text := none

/-- One entry of `listeners`. -/
structure ListenerRule where
  bind : Text := "0.0.0.0".toList
  tcp : Option UInt16 := none
  udp : Option UInt16 := none
  haproxy : Bool := false
  bedrockTransport : BedrockTransport := .raknet
  nethernetDiagnostics : Bool := false
  nethernetAdvertiseHost : Option IpAddr := none
  nethernetAdvertisePort : Option UInt16 := none
  https : Option ListenerHttpsConfig := none
  rewriteBedrockPongPorts : Bool := true
  webhook : Option Text := none
  target : Option ProxyTarget := none
  targets : List ProxyTarget := []
  httpMappings : List HttpTargetMapping := []

/-- The ports that the relay gives out. -/
structure SharedServicePortRange where
  start : UInt16 := 40000
  finish : UInt16 := 49999

/-- The queue of clients that wait for a port. -/
structure SharedServiceQueueConfig where
  enabled : Bool := true
  maxSize : Nat := 128

/-- The limits of a shared port. -/
structure SharedServiceLimits where
  maxBytesPerSecond : Nat := 10 * 1024 * 1024
  idleTimeoutSeconds : Nat := 120
  udpSessionTimeoutSeconds : Nat := 60

/-- A token of the relay; issued ones have a hash only. -/
structure SharedServiceToken where
  id : Text := []
  name : Text := []
  token : Text := []
  tokenHash : Text := []
  scopes : List Text := []
  expiresAt : Option Text := none
  createdAt : Option Text := none
  lastUsedAt : Option Text := none
  issuerId : Option Text := none
  enabled : Bool := true
  fixedPort : Option UInt16 := none
  priority : UInt16 := 10
  limits : SharedServiceLimits := {}

/-- The `sharedService` section. -/
structure SharedServiceConfig where
  enabled : Bool := false
  controlBind : Text := "0.0.0.0:7000".toList
  publicBind : Text := "0.0.0.0".toList
  publicHost : Text := []
  portRange : SharedServicePortRange := {}
  serverSalt : Text := []
  authTokens : List Text := []
  allowAnonymous : Bool := true
  queue : SharedServiceQueueConfig := {}
  tokens : List SharedServiceToken := []
  defaults : SharedServiceLimits := {}
  maximums : SharedServiceLimits := {}

/-- The `ddosGuard` section. -/
structure DdosGuardConfig where
  enabled : Bool := true
  tcpMaxActivePerIp : Nat := 256
  tcpNewConnectionsPerSecond : ℚ := 100
  tcpNewConnectionBurst : ℚ := 500
  udpPacketsPerSecond : ℚ := 240
  udpPacketBurst : ℚ := 480
  udpBytesPerSecond : ℚ := 2 * 1024 * 1024
  udpByteBurst : ℚ := 4 * 1024 * 1024
  udpMaxDatagramBytes : Nat := 8 * 1024

/-- The `highLatency` section. -/
structure HighLatencyConfig where
  enabled : Bool := false
  initialClientDataTimeoutMs : Nat := 10000
  connectTimeoutMs : Nat := 10000
  udpSessionIdleTimeoutMs : Nat := 10000

/-- The firewall that is told to open ports. -/
inductive FirewallMode where
  | auto
  | off
  | ufw
  | firewalld
  | iptables
  | nftables
  | netsh
  deriving DecidableEq, Repr

/-- The `firewall` section. -/
structure FirewallConfig where
  enabled : Bool := true
  mode : FirewallMode := .auto

/-- A blocked address. -/
structure IpBlockEntry where
  ip : Text
  reason : Option Text := none

/-- The `ipBlock` section. -/
structure IpBlockConfig where
  enabled : Bool := false
  blockVpn : Bool := false
  blockDatacenter : Bool := false
  vpnFeedUrl : Text :=
    "https://raw.githubusercontent.com/X4BNet/lists_vpn/main/output/vpn/ipv4.txt".toList
  datacenterFeedUrl : Text :=
    "https://raw.githubusercontent.com/X4BNet/lists_vpn/main/output/datacenter/ipv4.txt".toList
  feedRefreshIntervalSeconds : Nat := 86400
  blockedIps : List IpBlockEntry := []
  blockedCidrs : List Text := []

/-- The whole file. -/
structure ProxyConfig where
  endpoint : UInt16 := 6000
  useRestApi : Bool := false
  savePlayerIp : Bool := true
  debug : Bool := false
  sharedService : Option SharedServiceConfig := none
  ddosGuard : DdosGuardConfig := {}
  highLatency : HighLatencyConfig := {}
  firewall : FirewallConfig := {}
  ipBlock : IpBlockConfig := {}
  listeners : List ListenerRule

namespace ListenerRule

def usesRaknetUdp (rule : ListenerRule) : Bool :=
  rule.bedrockTransport == .raknet

end ListenerRule

/-- The port a target offers for a protocol. -/
def ProxyTarget.portFor (t : ProxyTarget) : Protocol → Option UInt16
  | .tcp => t.tcp
  | .udp => t.udp

/-- The list of targets when it is not empty, otherwise the single target. -/
def chosenTargets (target : Option ProxyTarget) (targets : List ProxyTarget) :
    List ProxyTarget :=
  if targets.isEmpty then target.toList else targets

/-- Choosing commutes with changing every target. -/
theorem chosenTargets_map (f : ProxyTarget → ProxyTarget) (target : Option ProxyTarget)
    (targets : List ProxyTarget) :
    chosenTargets (target.map f) (targets.map f) = (chosenTargets target targets).map f := by
  cases targets with
  | nil => cases target <;> rfl
  | cons t rest => rfl

theorem mem_chosenTargets {t : ProxyTarget} {target : Option ProxyTarget}
    {targets : List ProxyTarget} (h : t ∈ chosenTargets target targets) :
    t ∈ target.toList ++ targets := by
  cases targets with
  | nil => simpa [chosenTargets] using h
  | cons s rest => exact List.mem_append_right _ h

namespace ListenerRule

def targetsFor (rule : ListenerRule) (protocol : Protocol) : List ProxyTarget :=
  (chosenTargets rule.target rule.targets).filter (fun t => (t.portFor protocol).isSome)

def httpTargetsFor (rule : ListenerRule) (protocol : Protocol) : List ProxyTarget :=
  (rule.httpMappings.flatMap (fun m => chosenTargets m.target m.targets)).filter
    (fun t => (t.portFor protocol).isSome)

def hasTargetsFor (rule : ListenerRule) (protocol : Protocol) : Bool :=
  !(rule.targetsFor protocol).isEmpty || !(rule.httpTargetsFor protocol).isEmpty

/-- A listener has a target for a protocol when one of its own or of its
mappings' chosen targets offers a port for it. -/
theorem hasTargetsFor_iff {rule : ListenerRule} {protocol : Protocol} :
    rule.hasTargetsFor protocol = true ↔
      (∃ t ∈ chosenTargets rule.target rule.targets, (t.portFor protocol).isSome) ∨
        ∃ m ∈ rule.httpMappings, ∃ t ∈ chosenTargets m.target m.targets,
          (t.portFor protocol).isSome := by
  simp only [hasTargetsFor, targetsFor, httpTargetsFor, Bool.or_eq_true, Bool.not_eq_true',
    List.isEmpty_eq_false_iff_exists_mem, List.mem_filter, List.mem_flatMap]
  constructor
  · intro h
    rcases h with ⟨t, ht, hp⟩ | ⟨t, ⟨m, hm, ht⟩, hp⟩
    · exact Or.inl ⟨t, ht, hp⟩
    · exact Or.inr ⟨m, hm, t, ht, hp⟩
  · intro h
    rcases h with ⟨t, ht, hp⟩ | ⟨m, hm, t, ht, hp⟩
    · exact Or.inl ⟨t, ht, hp⟩
    · exact Or.inr ⟨t, ⟨m, hm, ht⟩, hp⟩

end ListenerRule

end FerrumProxy
