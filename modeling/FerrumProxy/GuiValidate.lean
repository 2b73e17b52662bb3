import FerrumProxy.JsValues

/-!
# `ConfigManager.validate`

The GUI checks a configuration that a client has sent before it writes it.  Each check below is one
`if` of the source, in the source's order, with its message.  The second half says what is known of
the shared service of a configuration without messages.
-/

namespace FerrumProxy

open Str Js

/-- What the GUI uses of Node: `isIP`, `new URL` with an `http:` or `https:` protocol,
`Number`, where none is `NaN`, the text of an array or an object, and `toLowerCase`. -/
structure NodeEnv where
  isIp : Text → Nat
  isHttpUrl : Text → Bool
  toNumber : Text → Option ℚ
  toText : Json → Text
  toLowerCase : Text → Text

section Checks

variable (node : NodeEnv)

/-! ## Numbers -/

/-- A value other than `undefined` that is no number from 1 to 65535. -/
def badPort : Value → Bool
  | none => false
  | some (.num value) => decide (value < 1) || decide (65535 < value)
  | some _ => true

/-- A port of a listener or of a target. -/
def checkPort (holder : Value) (key message : String) : Check := do
  let port ← prop holder key
  return errorIf (badPort port) message

def validateTargetPorts (target : Value) (path : String) : Check :=
  if !truthy target then .ok []
  else
    allChecks [
      checkPort target "tcp" (path ++ ".tcp must be a valid port number"),
      checkPort target "udp" (path ++ ".udp must be a valid port number")]

def validatePositiveLimit (value : Value) (path : String) : List String :=
  let bad := match value with
    | none => false
    | some (.num value) => !isInteger value || decide (value < 1)
    | some _ => true
  errorIf bad (path ++ " must be a positive integer")

def validatePort (value : Value) (path : String) : List String :=
  let bad := match value with
    | none => false
    | some .null => false
    | some (.num value) => !isInteger value || decide (value < 1) || decide (65535 < value)
    | some _ => true
  errorIf bad (path ++ " must be a valid port number (1-65535)")

/-- One limit of a group. -/
def validateLimit (group : Value) (key path : String) : Check := do
  let value ← prop group key
  return validatePositiveLimit value (path ++ "." ++ key)

/-- The three limits of a group, if the group is there. -/
def validateLimits (group : Value) (path : String) : Check :=
  if !truthy group then .ok []
  else
    allChecks [
      validateLimit group "maxBytesPerSecond" path,
      validateLimit group "idleTimeoutSeconds" path,
      validateLimit group "udpSessionTimeoutSeconds" path]

/-! ## The IP block list -/

/-- A property that is neither `undefined` nor of the kind. -/
def isOther (kind : Json → Bool) : Value → Bool
  | none => false
  | some json => !kind json

def validateFeedUrl (value : Value) (key : String) : List String :=
  let bad := match value with
    | none => false
    | some (.str text) => !node.isHttpUrl text
    | some _ => true
  errorIf bad ("ipBlock." ++ key ++ " must be an HTTP or HTTPS URL")

def validateBlockedIp (index : Nat) (entry : Json) : Check :=
  let badIp := match entry.get "ip" with
    | some (.str ip) => ip.contains '%' || node.isIp (Js.trim ip) == 0
    | _ => true
  let badReason := match entry.get "reason" with
    | none => false
    | some .null => false
    | some json => !isString json
  .ok (errorIf (!truthy (some entry) || badIp)
      s!"ipBlock.blockedIps[{index}].ip must be an IPv4 or IPv6 address" ++
    errorIf badReason s!"ipBlock.blockedIps[{index}].reason must be a string")

/-- A network in the notation with a slash. -/
def badCidr (cidr : Text) : Bool :=
  match split '/' (Js.trim cidr) with
  | [address, bits] =>
    let version := if address.contains '%' then 0 else node.isIp (Js.trim address)
    version == 0 || (Js.trim bits).isEmpty || !(Js.trim bits).all Char.isDigit ||
      (node.toNumber bits).any (fun n => decide ((if version == 4 then 32 else 128) < n))
  | _ => true

def validateBlockedCidr (index : Nat) (cidr : Json) : Check :=
  let bad := match cidr with
    | .str text => badCidr node text
    | _ => true
  .ok (errorIf bad s!"ipBlock.blockedCidrs[{index}] must be a valid IPv4 or IPv6 CIDR")

/-- Each item of an array, if the property is there. -/
def validateArray (value : Value) (message : String) (check : Nat → Json → Check) : Check :=
  match value with
  | none => .ok []
  | some (.arr items) => eachItem check items
  | some _ => .ok [message]

def validateIpBlockConfig : Json → Check
  | .obj fields =>
    let config := Json.obj fields
    let badInterval := match config.get "feedRefreshIntervalSeconds" with
      | none => false
      | some (.num value) => !isInteger value || decide (9007199254740991 < value) ||
          decide (value < 0)
      | some _ => true
    allChecks [
      .ok (errorIf (isOther isBoolean (config.get "enabled")) "ipBlock.enabled must be boolean"),
      .ok (errorIf (isOther isBoolean (config.get "blockVpn")) "ipBlock.blockVpn must be boolean"),
      .ok (errorIf (isOther isBoolean (config.get "blockDatacenter"))
        "ipBlock.blockDatacenter must be boolean"),
      .ok (validateFeedUrl node (config.get "vpnFeedUrl") "vpnFeedUrl"),
      .ok (validateFeedUrl node (config.get "datacenterFeedUrl") "datacenterFeedUrl"),
      .ok (errorIf badInterval
        "ipBlock.feedRefreshIntervalSeconds must be a non-negative integer (0 = startup only)"),
      validateArray (config.get "blockedIps") "ipBlock.blockedIps must be an array"
        (validateBlockedIp node),
      validateArray (config.get "blockedCidrs") "ipBlock.blockedCidrs must be an array"
        (validateBlockedCidr node)]
  | _ => .ok ["ipBlock must be an object"]

/-! ## The shared service -/

def validateControlBind (shared : Value) : Check := do
  let enabled ← prop shared "enabled"
  let controlBind ← prop shared "controlBind"
  if truthy enabled && truthy controlBind then
    match controlBind with
    | some (.str text) =>
      let bad := match split ':' text with
        | [_, port] => (node.toNumber port).isNone
        | _ => true
      return errorIf bad "sharedService.controlBind must be in format host:port"
    | _ => .error ⟨⟩
  else return []

def validatePortRange (range : Value) : Check :=
  if !truthy range then .ok []
  else do
    let start ← prop range "start"
    let finish ← prop range "end"
    let reversed := match start, finish with
      | some (.num a), some (.num b) => decide (b < a)
      | _, _ => false
    return validatePort start "sharedService.portRange.start" ++
      validatePort finish "sharedService.portRange.end" ++
      errorIf reversed "sharedService.portRange.start must be less than or equal to end"

/-- Neither a non-empty text nor anything else that counts. -/
def lacksText : Value → Bool
  | some (.str text) => text.isEmpty
  | _ => true

def validateToken (index : Nat) (token : Json) : Check :=
  let place := s!"sharedService.tokens[{index}]"
  allChecks [
    do
      let text ← prop (some token) "token"
      let hash ← prop (some token) "tokenHash"
      return errorIf (lacksText text && lacksText hash) (place ++ " must have token or tokenHash"),
    do
      let scopes ← prop (some token) "scopes"
      let bad := match scopes with
        | none => false
        | some (.arr _) => false
        | some _ => true
      return errorIf bad (place ++ ".scopes must be an array"),
    do
      let fixedPort ← prop (some token) "fixedPort"
      return validatePort fixedPort (place ++ ".fixedPort"),
    do
      let priority ← prop (some token) "priority"
      let bad := match priority with
        | none => false
        | some (.num value) => !isInteger value || decide (value < 0)
        | some _ => true
      return errorIf bad (place ++ ".priority must be a non-negative integer"),
    do
      let limits ← prop (some token) "limits"
      validateLimits limits (place ++ ".limits")]

def validateSharedService (shared : Value) : Check :=
  if !truthy shared then .ok []
  else
    allChecks [
      validateControlBind node shared,
      do
        let range ← prop shared "portRange"
        validatePortRange range,
      do
        let defaults ← prop shared "defaults"
        validateLimits defaults "sharedService.defaults",
      do
        let maximums ← prop shared "maximums"
        validateLimits maximums "sharedService.maximums",
      do
        let queue ← prop shared "queue"
        if truthy queue then validateLimit queue "maxSize" "sharedService.queue" else return [],
      do
        let tokens ← prop shared "tokens"
        validateArray tokens "sharedService.tokens must be an array" validateToken]

/-! ## Listeners -/

def validateAdvertiseHost (index : Nat) (listener : Value) : Check := do
  let host ← prop listener "nethernetAdvertiseHost"
  match host with
  | none => return []
  | some json =>
    let bad := match json with
      | .str text => node.isIp text == 0 || ["0.0.0.0".toList, "::".toList].contains text
      | _ => true
    let transport ← prop listener "bedrockTransport"
    let tcp ← prop listener "tcp"
    let udp ← prop listener "udp"
    return errorIf bad
        s!"listeners[{index}].nethernetAdvertiseHost must be a usable literal IP address" ++
      errorIf (!strictEq transport (some (.str "nethernet".toList)) || !truthy tcp || !truthy udp)
        s!"listeners[{index}]: NetherNet advertisement requires NetherNet, TCP and UDP"

def validateAdvertisePort (index : Nat) (listener : Value) : Check := do
  let port ← prop listener "nethernetAdvertisePort"
  let host ← prop listener "nethernetAdvertiseHost"
  let bad := match port with
    | none => false
    | some (.num value) => !truthy host || !isInteger value || decide (value < 1) ||
        decide (65535 < value)
    | some _ => true
  return errorIf bad
    s!"listeners[{index}].nethernetAdvertisePort requires a public IP and a valid port"

def validateTransport (index : Nat) (listener : Value) : Check := do
  let transport ← prop listener "bedrockTransport"
  let bad := match transport with
    | none => false
    | some (.str text) => !(["raknet".toList, "nethernet".toList].contains text)
    | some _ => true
  return errorIf bad s!"listeners[{index}].bedrockTransport must be raknet or nethernet"

/-- `domains?.some((domain) => domain.trim())`. -/
def someTrimmed : List Json → Except TypeError Bool
  | [] => .ok false
  | .str text :: rest => if (Js.trim text).isEmpty then someTrimmed rest else .ok true
  | _ :: _ => .error ⟨⟩

/-- `httpMappings?.some(mapping => mapping.hostname)`. -/
def someHostname : List Json → Except TypeError Bool
  | [] => .ok false
  | mapping :: rest => do
      let hostname ← prop (some mapping) "hostname"
      if truthy hostname then return true else someHostname rest

/-- `value?.some(f)`. -/
def optSome (f : List Json → Except TypeError Bool) : Value → Except TypeError Bool
  | none => .ok false
  | some .null => .ok false
  | some (.arr items) => f items
  | _ => .error ⟨⟩

def validateAutoProvision (index : Nat) (https : Value) : Check := do
  let autoProvision ← prop https "autoProvision"
  if truthy autoProvision then
    let domain ← optTrim (← prop https "letsEncryptDomain")
    if truthy domain then return []
    else
      let found ← optSome someTrimmed (← prop https "letsEncryptDomains")
      return errorIf (!found)
        s!"listeners[{index}].https requires at least one domain when autoProvision is enabled"
  else return []

def validateHttp3 (index : Nat) (listener https : Value) : Check := do
  let http3 ← prop https "http3"
  let enabled ← prop https "enabled"
  let tcp ← prop listener "tcp"
  let udp ← prop listener "udp"
  let message := s!"listeners[{index}].https.http3 requires HTTPS, a TCP port, a free matching "
    ++ "UDP port and hostname routes"
  if truthy http3 then
    if !truthy enabled || !truthy tcp || strictEq udp tcp then return [message]
    else
      let found ← optSome someHostname (← prop listener "httpMappings")
      return errorIf (!found) message
  else return []

/-- A property of the HTTPS section that must be a text if it is there. -/
def validateText (index : Nat) (https : Value) (key : String) : Check := do
  let value ← prop https key
  return errorIf (isOther isString value) (s!"listeners[{index}].https." ++ key ++ " must be a string")

def validateHttps (index : Nat) (listener : Value) : Check := do
  let https ← prop listener "https"
  match https with
  | none => return []
  | some (.obj _) | some (.arr _) =>
    allChecks [
      validateText index https "letsEncryptDomain",
      do
        let domains ← prop https "letsEncryptDomains"
        let bad := match domains with
          | none => false
          | some (.arr items) => items.any (fun item => !isString item)
          | some _ => true
        return errorIf bad s!"listeners[{index}].https.letsEncryptDomains must be a string array",
      validateText index https "letsEncryptEmail",
      validateAutoProvision index https,
      do
        let http3 ← prop https "http3"
        return errorIf (isOther isBoolean http3)
          s!"listeners[{index}].https.http3 must be a boolean",
      validateHttp3 index listener https,
      validateText index https "certPath",
      validateText index https "keyPath"]
  | some _ => return [s!"listeners[{index}].https must be an object"]

/-- A label of the host name pattern: letters, digits and inner hyphens, at most 63. -/
def isHostLabel (label : Text) : Bool :=
  decide (label.length ≤ 63) && label.head?.any Char.isAlphanum && label.getLast?.any Char.isAlphanum
    && label.all (fun c => c.isAlphanum || c == '-')

/-- The host name pattern, which allows a dot at the end. -/
def isHostPattern (text : Text) : Bool :=
  decide (1 ≤ text.length) && decide (text.length ≤ 253) &&
    (split '.' (if text.getLast? == some '.' then text.dropLast else text)).all isHostLabel

/-- `value?.length`, as far as it counts as true. -/
def hasLength : Value → Bool
  | some (.arr items) => !items.isEmpty
  | some (.str text) => !text.isEmpty
  | some (.obj fields) => truthy (Fields.get fields "length")
  | _ => false

/-- The targets of a mapping: `targets` if it has a length, otherwise `target`. -/
def mappingTargets (mapping : Value) : Except TypeError (List Json) := do
  let targets ← prop mapping "targets"
  if hasLength targets then
    match targets with
    | some (.arr items) => return items
    | _ => .error ⟨⟩
  else
    let target ← prop mapping "target"
    if truthy target then return target.toList else return []

/-- `targets.some(target => !target.host?.trim())`. -/
def someHostless : List Json → Except TypeError Bool
  | [] => .ok false
  | target :: rest => do
      let host ← optTrim (← prop (some target) "host")
      if truthy host then someHostless rest else return true

def validateMapping (index routeIndex : Nat) (mapping : Json) : Check :=
  let place := s!"listeners[{index}].httpMappings[{routeIndex}]"
  allChecks [
    do
      let path ← prop (some mapping) "path"
      let bad := match path with
        | some (.str text) => !(text.head? == some '/') || text.contains '\r' || text.contains '\n'
        | _ => true
      return errorIf bad (place ++ ".path must start with /"),
    do
      let hostname ← prop (some mapping) "hostname"
      let bad := match hostname with
        | none => false
        | some (.str text) => !(Js.trim text).isEmpty && !isHostPattern (Js.trim text)
        | some _ => true
      return errorIf bad (place ++ ".hostname must be a hostname without a scheme, port or wildcard"),
    do
      let targets ← mappingTargets (some mapping)
      let hostless ← if targets.isEmpty then Except.ok true else someHostless targets
      let ports ← allChecks (targets.map (fun target => validateTargetPorts (some target) place))
      return errorIf hostless (place ++ " requires a target") ++ ports]

def validateListener (index : Nat) (listener : Json) : Check :=
  let place := s!"listeners[{index}]"
  allChecks [
    do
      let diagnostics ← prop (some listener) "nethernetDiagnostics"
      return errorIf (isOther isBoolean diagnostics) (place ++ ".nethernetDiagnostics must be boolean"),
    validateAdvertiseHost node index (some listener),
    validateAdvertisePort index (some listener),
    validateTransport index (some listener),
    checkPort (some listener) "tcp" (place ++ ".tcp must be a valid port number"),
    checkPort (some listener) "udp" (place ++ ".udp must be a valid port number"),
    validateHttps index (some listener),
    do
      let mappings ← prop (some listener) "httpMappings"
      validateArray mappings (place ++ ".httpMappings must be an array") (validateMapping index),
    do
      let target ← prop (some listener) "target"
      validateTargetPorts target (place ++ ".target"),
    do
      let targets ← prop (some listener) "targets"
      validateArray targets (place ++ ".targets must be an array") (fun targetIndex target =>
        validateTargetPorts (some target) s!"{place}.targets[{targetIndex}]")]

/-! ## The configuration -/

/-- The messages of `ConfigManager.validate`. -/
def validate (config : Json) : Check :=
  allChecks [
    do
      let ipBlock ← prop (some config) "ipBlock"
      match ipBlock with
      | none => return []
      | some ipBlock => validateIpBlockConfig node ipBlock,
    checkPort (some config) "endpoint" "endpoint must be a valid port number (1-65535)",
    do
      let shared ← prop (some config) "sharedService"
      validateSharedService node shared,
    do
      let listeners ← prop (some config) "listeners"
      if truthy listeners then
        validateArray listeners "listeners must be an array" (validateListener node)
      else return []]

end Checks

/-! ## What is known of a configuration without messages -/

def IsIntegerPort (json : Json) : Prop := ∃ n : Nat, json = .num n ∧ 1 ≤ n ∧ n ≤ 65535

/-- What is known of a token that passed the checks. -/
structure ValidToken (token : Json) : Prop where
  nonnull : token ≠ .null
  text : (∃ text, token.get "token" = some (.str text) ∧ text ≠ []) ∨
    ∃ hash, token.get "tokenHash" = some (.str hash) ∧ hash ≠ []
  fixedPort : Optional (NullOr IsIntegerPort) (token.get "fixedPort")

/-- What is known of the port range. -/
structure ValidPortRange (range : Json) : Prop where
  start : Optional (NullOr IsIntegerPort) (range.get "start")
  finish : Optional (NullOr IsIntegerPort) (range.get "end")

/-- What is known of the shared service. -/
structure ValidShared (shared : Json) : Prop where
  portRange : Optional (fun json => truthy (some json) = true → ValidPortRange json)
    (shared.get "portRange")
  tokens : Optional (IsArrayOf ValidToken) (shared.get "tokens")

def ValidService (config : Json) : Prop :=
  Optional (fun json => truthy (some json) = true → ValidShared json) (config.get "sharedService")

/-! ### Values -/

theorem isIntegerPort_of_bounds {value : ℚ} (hint : isInteger value = true) (hlow : 1 ≤ value)
    (hhigh : value ≤ 65535) : IsIntegerPort (.num value) := by
  obtain ⟨n, rfl⟩ := exists_nat_of_isInteger hint (le_trans (by norm_num) hlow)
  exact ⟨n, rfl, by exact_mod_cast hlow, by exact_mod_cast hhigh⟩

theorem isIntegerPort_of_validatePort {value : Value} {path : String}
    (h : validatePort value path = []) : Optional (NullOr IsIntegerPort) value := by
  intro json hjson
  subst hjson
  have hgood := errorIf_eq_nil.mp h
  cases json with
  | null => exact .inl rfl
  | num value =>
    simp only [Bool.or_eq_false_iff, Bool.not_eq_false', decide_eq_false_iff_not, Rat.not_lt]
      at hgood
    exact .inr (isIntegerPort_of_bounds hgood.1.1 hgood.1.2 hgood.2)
  | _ => cases hgood

theorem isArrayOf_of_validateArray {value : Value} {message : String}
    {check : Nat → Json → Check} {P : Json → Prop} (h : validateArray value message check = .ok [])
    (hitem : ∀ i item, check i item = .ok [] → P item) : Optional (IsArrayOf P) value := by
  intro json hjson
  subst hjson
  cases json with
  | arr items =>
    refine ⟨items, rfl, fun item hmem => ?_⟩
    obtain ⟨i, hi, rfl⟩ := List.getElem_of_mem hmem
    exact hitem i _ (allChecks_eq_nil.mp h _ (List.mem_mapIdx.mpr ⟨i, hi, rfl⟩))
  | _ => cases h

/-! ### The shared service -/

theorem validToken_of_validateToken {index : Nat} {token : Json}
    (h : validateToken index token = .ok []) : ValidToken token := by
  have hall := allChecks_eq_nil.mp h
  simp only [List.forall_mem_cons] at hall
  obtain ⟨htext, _, hfixed, _⟩ := hall
  have hne : token ≠ .null := by
    obtain ⟨value, hvalue, _⟩ := Wire.bind_eq_ok.mp htext
    exact (prop_eq_ok.mp hvalue).1
  simp only [prop_of_ne_null hne, Wire.bind_eq_ok, Except.ok.injEq, exists_eq_left', pure,
    Except.pure, errorIf_eq_nil] at htext hfixed
  have hfound : ∀ {value : Value}, lacksText value = false →
      ∃ text, value = some (.str text) ∧ text ≠ [] := by
    intro value hvalue
    cases value with
    | none => cases hvalue
    | some json =>
      cases json with
      | str text => exact ⟨text, rfl, List.isEmpty_eq_false_iff.mp hvalue⟩
      | _ => cases hvalue
  exact ⟨hne, (Bool.and_eq_false_iff.mp htext).imp hfound hfound,
    isIntegerPort_of_validatePort hfixed⟩

theorem validPortRange_of_validatePortRange {range : Json}
    (h : validatePortRange (some range) = .ok []) (htruthy : truthy (some range) = true) :
    ValidPortRange range := by
  rw [validatePortRange, htruthy] at h
  simp only [Bool.not_true, Bool.false_eq_true, if_false, prop_of_ne_null (ne_null_of_truthy htruthy),
    Wire.bind_eq_ok, Except.ok.injEq, exists_eq_left', pure, Except.pure, List.append_eq_nil_iff] at h
  exact ⟨isIntegerPort_of_validatePort h.1.1, isIntegerPort_of_validatePort h.1.2⟩

theorem validShared_of_validateSharedService {node : NodeEnv} {shared : Json}
    (h : validateSharedService node (some shared) = .ok []) (htruthy : truthy (some shared) = true) :
    ValidShared shared := by
  rw [validateSharedService, htruthy] at h
  have hall := allChecks_eq_nil.mp h
  simp only [List.forall_mem_cons, prop_of_ne_null (ne_null_of_truthy htruthy), Wire.bind_eq_ok,
    Except.ok.injEq, exists_eq_left'] at hall
  obtain ⟨_, hrange, _, _, _, htokens, _⟩ := hall
  refine ⟨?_, isArrayOf_of_validateArray htokens (fun _ _ => validToken_of_validateToken)⟩
  intro json hjson htruthy
  rw [hjson] at hrange
  exact validPortRange_of_validatePortRange hrange htruthy

/-! ### The configuration -/

/-- **What a shared service without messages is known to have.** -/
theorem validService_of_validate {node : NodeEnv} {config : Json}
    (h : validate node config = .ok []) : ValidService config := by
  have hall := allChecks_eq_nil.mp h
  simp only [List.forall_mem_cons] at hall
  obtain ⟨hipBlock, _, hshared, _⟩ := hall
  have hne : config ≠ .null := by
    obtain ⟨value, hvalue, _⟩ := Wire.bind_eq_ok.mp hipBlock
    exact (prop_eq_ok.mp hvalue).1
  simp only [prop_of_ne_null hne, Wire.bind_eq_ok, Except.ok.injEq, exists_eq_left'] at hshared
  intro json hjson htruthy
  rw [hjson] at hshared
  exact validShared_of_validateSharedService hshared htruthy

end FerrumProxy
