import FerrumProxy.GuiValidate

/-!
# `ConfigManager.sanitize`

What `ConfigManager.write` serialises: the configuration with texts trimmed, tokens without a text
dropped and host names in lower case.  A property of another type than expected makes a call of
`trim` or `map` throw.
-/

namespace FerrumProxy

open Str Js

/-! ## The IP block list -/

/-- `cidr => cidr.trim()`. -/
def trimItem (json : Json) : Except TypeError Json :=
  (callTrim (some json)).map Json.str

def sanitizeBlockedIp (entry : Json) : Except TypeError Json := do
  let ip ← callTrim (← prop (some entry) "ip")
  let reason ← trimmed (← prop (some entry) "reason")
  return withProps entry [("ip", some (.str ip)), ("reason", reason)]

def sanitizeIpBlock (ipBlock : Value) : Except TypeError Value :=
  match ipBlock with
  | some json =>
    if truthy ipBlock then do
      let vpnFeedUrl ← optTrim (json.get "vpnFeedUrl")
      let datacenterFeedUrl ← optTrim (json.get "datacenterFeedUrl")
      let blockedIps ← optMap sanitizeBlockedIp (json.get "blockedIps")
      let blockedCidrs ← optMap trimItem (json.get "blockedCidrs")
      return some (withProps json [("vpnFeedUrl", vpnFeedUrl),
        ("datacenterFeedUrl", datacenterFeedUrl), ("blockedIps", blockedIps),
        ("blockedCidrs", blockedCidrs)])
    else return ipBlock
  | none => return none

/-! ## The shared service -/

/-- `if (value) value = value.trim()`. -/
def trimIfSet (value : Value) : Except TypeError Value :=
  if truthy value then (callTrim value).map (fun text => some (.str text)) else .ok value

/-- `t => t.token && t.token.trim().length > 0`. -/
def keepsToken (t : Json) : Except TypeError Bool := do
  let token ← prop (some t) "token"
  if truthy token then
    let text ← callTrim token
    return !text.isEmpty
  else return false

def sanitizeToken (t : Json) : Except TypeError Json := do
  let token ← callTrim (← prop (some t) "token")
  let name ← trimmed (← prop (some t) "name")
  return withProps t [("token", some (.str token)), ("name", name)]

def sanitizeTokens (tokens : Value) : Except TypeError Value :=
  if truthy tokens then
    match tokens with
    | some (.arr items) => do
        let kept ← filterItems keepsToken items
        let mapped ← kept.mapM sanitizeToken
        return some (.arr mapped)
    | _ => .error ⟨⟩
  else .ok tokens

/-- `t => t.trim().length > 0`. -/
def keepsAuthToken (t : Json) : Except TypeError Bool := do
  let text ← callTrim (some t)
  return !text.isEmpty

def sanitizeAuthTokens (authTokens : Value) : Except TypeError Value :=
  if truthy authTokens then
    match authTokens with
    | some (.arr items) => do
        let kept ← filterItems keepsAuthToken items
        return some (.arr kept)
    | _ => .error ⟨⟩
  else .ok authTokens

section Node

variable (node : NodeEnv)

/-- `Number(value)`. -/
def numberOf : Json → Option ℚ
  | .num value => some value
  | .null => some 0
  | .bool value => some (if value then 1 else 0)
  | .str text => node.toNumber text
  | json => node.toNumber (node.toText json)

/-- `Math.floor(value)`; `NaN` is the text that YAML writes for it. -/
def mathFloor (json : Json) : Json :=
  match numberOf node json with
  | some value => .num ⌊value⌋
  | none => .str ".nan".toList

/-- Only an object can have the two properties. -/
def sanitizePortRange : Value → Value
  | some (.obj fields) =>
    some (withProps (.obj fields) [
      ("start", (Fields.get fields "start").map (mathFloor node)),
      ("end", (Fields.get fields "end").map (mathFloor node))])
  | range => range

def sanitizeSharedService (sharedService : Value) : Except TypeError Value :=
  match sharedService with
  | some shared =>
    if truthy sharedService then do
      let controlBind ← trimIfSet (shared.get "controlBind")
      let publicBind ← trimIfSet (shared.get "publicBind")
      let publicHost ← trimIfSet (shared.get "publicHost")
      let tokens ← sanitizeTokens (shared.get "tokens")
      let authTokens ← sanitizeAuthTokens (shared.get "authTokens")
      return some (withProps shared [("controlBind", controlBind), ("publicBind", publicBind),
        ("publicHost", publicHost), ("tokens", tokens), ("authTokens", authTokens),
        ("portRange", sanitizePortRange node (shared.get "portRange"))])
    else return sharedService
  | none => return none

/-! ## Listeners -/

/-- `domain => domain.trim().toLowerCase()`. -/
def sanitizeDomain (domain : Json) : Except TypeError Text :=
  (callTrim (some domain)).map node.toLowerCase

/-- The domains in lower case, without blank ones and each of them once. -/
def sanitizeDomains (domains : Value) : Except TypeError Value := do
  let texts ← if truthy domains then
      match domains with
      | some (.arr items) => items.mapM (sanitizeDomain node)
      | _ => .error ⟨⟩
    else .ok []
  return some (.arr (((texts.filter (fun text => !text.isEmpty)).eraseDups).map Json.str))

def sanitizeHttps (https : Value) : Except TypeError Value :=
  match https with
  | some json =>
    if truthy https then do
      let letsEncryptDomain ← trimmed (json.get "letsEncryptDomain")
      let letsEncryptDomains ← sanitizeDomains node (json.get "letsEncryptDomains")
      let letsEncryptEmail ← trimmed (json.get "letsEncryptEmail")
      let certPath ← trimmed (json.get "certPath")
      let keyPath ← trimmed (json.get "keyPath")
      return some (withProps json [("letsEncryptDomain", letsEncryptDomain),
        ("letsEncryptDomains", letsEncryptDomains), ("letsEncryptEmail", letsEncryptEmail),
        ("certPath", certPath), ("keyPath", keyPath)])
    else return none
  | none => return none

/-- `text.replace(/\.$/, "")`. -/
def stripDot (text : Text) : Text :=
  if text.getLast? = some '.' then text.dropLast else text

/-- `hostname?.trim().replace(/\.$/, "").toLowerCase() || undefined`. -/
def sanitizeHostname (hostname : Value) : Except TypeError Value := do
  match ← optTrim hostname with
  | some (.str text) =>
    let lower := node.toLowerCase (stripDot text)
    return if lower.isEmpty then none else some (.str lower)
  | _ => return none

def sanitizeMapping (mapping : Json) : Except TypeError Json := do
  let hostname ← sanitizeHostname node (← prop (some mapping) "hostname")
  return withProps mapping [("hostname", hostname)]

def sanitizeListener (listener : Json) : Except TypeError Json := do
  let https ← sanitizeHttps node (← prop (some listener) "https")
  let webhook ← trimmed (← prop (some listener) "webhook")
  let httpMappings ← optMap (sanitizeMapping node) (← prop (some listener) "httpMappings")
  return withProps listener [("webhook", webhook), ("httpMappings", httpMappings), ("https", https)]

/-! ## The configuration -/

def sanitize (config : Json) : Except TypeError Json := do
  let ipBlock ← sanitizeIpBlock (← prop (some config) "ipBlock")
  let sharedService ← sanitizeSharedService node (config.get "sharedService")
  let listeners ← optMap (sanitizeListener node) (config.get "listeners")
  return withProps config [("ipBlock", ipBlock), ("sharedService", sharedService),
    ("listeners", listeners)]

end Node

end FerrumProxy
