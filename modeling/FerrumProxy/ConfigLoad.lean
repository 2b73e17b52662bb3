import FerrumProxy.ConfigTypes

/-!
# Loading and saving the configuration

`ProxyConfig::load` parses the file, rewrites every target that is written as a URL and then checks
each listener; `ProxyConfig::save` serialises the rewritten value.  The YAML and URL crates are
parameters, with the one law that is used of each.
-/

namespace FerrumProxy

open Str

/-- The parts of a parsed URL that the proxy reads. -/
structure Url where
  scheme : Text
  host : Option Text
  port : Option UInt16
  path : Text
  query : Option Text
  serialized : Text
  deriving DecidableEq

/-- `Url::parse`. -/
structure UrlParser where
  parse : Text → Option Url
  host_not_absolute : ∀ {text host : Text} {u : Url},
    parse text = some u → u.host = some host → parse host = none

/-- What serde keeps of a target: the fields that are not marked `skip`. -/
def ProxyTarget.withoutSkipped (t : ProxyTarget) : ProxyTarget :=
  { t with urlProtocol := none, urlBasePath := none, mountPath := none, originalUrl := none }

def HttpTargetMapping.withoutSkipped (m : HttpTargetMapping) : HttpTargetMapping :=
  { m with
    target := m.target.map ProxyTarget.withoutSkipped
    targets := m.targets.map ProxyTarget.withoutSkipped }

def ListenerRule.withoutSkipped (rule : ListenerRule) : ListenerRule :=
  { rule with
    target := rule.target.map ProxyTarget.withoutSkipped
    targets := rule.targets.map ProxyTarget.withoutSkipped
    httpMappings := rule.httpMappings.map HttpTargetMapping.withoutSkipped }

def ProxyConfig.withoutSkipped (c : ProxyConfig) : ProxyConfig :=
  { c with listeners := c.listeners.map ListenerRule.withoutSkipped }

/-- `serde_yaml` for `ProxyConfig`, over any type of configuration texts. -/
structure SerdeYaml (Document : Type) where
  fromStr : Document → Except String ProxyConfig
  toString : ProxyConfig → Document
  fromStr_toString : ∀ c, fromStr (toString c) = .ok c.withoutSkipped
  fromStr_skipped : ∀ {text c}, fromStr text = .ok c → c.withoutSkipped = c

/-! ### Rewriting the targets -/

def defaultPort (scheme : Text) : Option UInt16 :=
  if scheme = "https".toList then some 443
  else if scheme = "http".toList then some 80
  else none

def isHttpScheme (scheme : Text) : Bool :=
  scheme == "https".toList || scheme == "http".toList

def normalizeUrlHost (url : UrlParser) (t : ProxyTarget) : ProxyTarget :=
  match url.parse t.host with
  | none => t
  | some parsed =>
    match parsed.host with
    | none => t
    | some host =>
      let port := parsed.port.or (defaultPort parsed.scheme)
      { t with
        host := host
        urlProtocol := if isHttpScheme parsed.scheme then some parsed.scheme else none
        urlBasePath :=
          if parsed.path = [] ∨ parsed.path = "/".toList then none
          else some (trimEndMatches '/' parsed.path)
        originalUrl := some parsed.serialized
        tcp := t.tcp.or port
        udp := t.udp.or port }

def normalizeMappingPath (path : Text) : Text :=
  let trimmed := trim path
  if trimmed = "/".toList then "/".toList
  else '/' :: trimEndMatches '/' (trimStartMatches '/' trimmed)

def normalizeHostname (hostname : Option Text) : Option Text :=
  (hostname.map (fun host => toAsciiLowercase (trimEndMatches '.' (trim host)))).filter
    (fun host => !host.isEmpty)

/-- The loop body of `HttpTargetMapping::normalize`. -/
def mountTarget (url : UrlParser) (path : Text) (t : ProxyTarget) : ProxyTarget :=
  { normalizeUrlHost url t with mountPath := some path }

def HttpTargetMapping.normalize (url : UrlParser) (m : HttpTargetMapping) : HttpTargetMapping :=
  let path := normalizeMappingPath m.path
  { path := path
    hostname := normalizeHostname m.hostname
    target := m.target.map (mountTarget url path)
    targets := m.targets.map (mountTarget url path) }

def ListenerRule.normalizeTargets (url : UrlParser) (rule : ListenerRule) : ListenerRule :=
  { rule with
    target := rule.target.map (normalizeUrlHost url)
    targets := rule.targets.map (normalizeUrlHost url)
    httpMappings := rule.httpMappings.map (HttpTargetMapping.normalize url) }

def ProxyConfig.normalizeTargets (url : UrlParser) (c : ProxyConfig) : ProxyConfig :=
  { c with listeners := c.listeners.map (ListenerRule.normalizeTargets url) }

/-! ### Checking the listeners -/

def IpAddr.isUnspecified : IpAddr → Bool
  | .v4 ip => ip.octets.all (· == 0)
  | .v6 ip => ip.octets.all (· == 0)

def IpAddr.isMulticast : IpAddr → Bool
  | .v4 ip => ip.octets.head?.any (fun b => decide (224 ≤ b.toNat) && decide (b.toNat ≤ 239))
  | .v6 ip => ip.octets.head?.any (· == 0xff)

/-- `anyhow::ensure!`. -/
def ensure (condition : Bool) (message : String) : Except String Unit :=
  if condition then .ok () else .error message

theorem ensure_eq_ok {condition : Bool} {message : String} :
    ensure condition message = .ok () ↔ condition = true := by
  cases condition <;> simp [ensure]

/-- A check made of every member of a list passes when it passes on each. -/
theorem forM_eq_ok {α : Type} {check : α → Except String Unit} {xs : List α} :
    xs.forM check = .ok () ↔ ∀ x ∈ xs, check x = .ok () := by
  induction xs with
  | nil => simp [pure, Except.pure]
  | cons x xs ih =>
    simp only [List.forM_eq_forM, List.forM_cons, Wire.bind_eq_ok, List.forall_mem_cons] at ih ⊢
    rw [ih]
    exact ⟨fun ⟨_, hx, hrest⟩ => ⟨hx, hrest⟩, fun ⟨hx, hrest⟩ => ⟨(), hx, hrest⟩⟩

def validLabel (label : Text) : Bool :=
  !label.isEmpty && decide (byteLen label ≤ 63) && !(label.head? == some '-') &&
    !(label.getLast? == some '-') && label.all (fun c => c.isAlphanum || c == '-')

def validHostname (host : Text) : Bool :=
  decide (byteLen host ≤ 253) && (split '.' host).all validLabel

def checkHttp3 (listener : ListenerRule) : Except String Unit :=
  if listener.https.any (·.http3) then do
    ensure (listener.https.any (·.enabled) && listener.tcp.isSome)
      "HTTP/3 requires an HTTPS TCP listener"
    ensure (!(listener.udp == listener.tcp)) "HTTP/3 UDP port conflicts with the UDP relay"
    ensure (!listener.httpMappings.isEmpty) "HTTP/3 requires explicit HTTP host routing"
  else
    .ok ()

def checkHostname (mapping : HttpTargetMapping) : Except String Unit :=
  match mapping.hostname with
  | some host =>
    ensure (validHostname host) ("Invalid HTTP routing hostname: " ++ String.ofList host)
  | none => .ok ()

def checkAdvertisement (listener : ListenerRule) : Except String Unit :=
  match listener.nethernetAdvertiseHost with
  | some ip => do
      ensure (!ip.isUnspecified && !ip.isMulticast)
        "nethernetAdvertiseHost must be a usable IP address"
      ensure (!listener.usesRaknetUdp)
        "nethernetAdvertiseHost requires bedrockTransport: nethernet"
      ensure (listener.tcp.isSome && listener.udp.isSome && listener.hasTargetsFor .udp)
        "NetherNet advertisement requires TCP signaling and UDP forwarding"
      ensure ((listener.nethernetAdvertisePort.or listener.udp).any (fun p => !(p == 0)))
        "NetherNet advertised port must be nonzero"
  | none =>
    ensure listener.nethernetAdvertisePort.isNone
      "nethernetAdvertisePort requires nethernetAdvertiseHost"

def checkListener (listener : ListenerRule) : Except String Unit := do
  checkHttp3 listener
  listener.httpMappings.forM checkHostname
  checkAdvertisement listener

section

variable {Document : Type} (yaml : SerdeYaml Document) (url : UrlParser)

/-- `ProxyConfig::load` on the text of an existing file. -/
def ProxyConfig.load (text : Document) : Except String ProxyConfig := do
  let parsed ← yaml.fromStr text
  let config := parsed.normalizeTargets url
  config.listeners.forM checkListener
  return config

/-- The text `ProxyConfig::save` writes. -/
def ProxyConfig.save (config : ProxyConfig) : Document :=
  yaml.toString config

end

end FerrumProxy
