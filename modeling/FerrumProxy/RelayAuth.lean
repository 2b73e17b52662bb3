import FerrumProxy.ConfigRoundTrip
import FerrumProxy.GuardedRuns

/-!
# Tokens of the shared relay over a history of configuration files

Every `CONNECT` and every `TOKEN` request reloads the configuration file and checks the presented
token against its `sharedService` section.  When the reload fails, or the file has no such section,
the relay uses the configuration it was started with.  The file is written, truncated or removed
between requests in any order.
-/

namespace FerrumProxy

open Str

/-- A point in time of the wall clock. -/
abbrev UtcTime := ℚ

/-- What the token check uses of other crates: YAML, URLs, the salted SHA-256
of `hash_token`, the RFC 3339 parser, and the text of the default file. -/
structure RelayEnv (Document : Type) where
  yaml : SerdeYaml Document
  url : UrlParser
  defaultConfigText : Document
  hashToken : Text → Text → Text
  parseRfc3339 : Text → Option UtcTime

/-! ## One request -/

section

variable {Document : Type} (env : RelayEnv Document)

/-- `ProxyConfig::load` on a path: a missing file is first created with the
default text, which fails when the path is not writable.  The first component
is the file afterwards. -/
def RelayEnv.loadPath (file : Option Document) (writable : Bool) :
    Option Document × Except String ProxyConfig :=
  match file with
  | some text => (some text, ProxyConfig.load env.yaml env.url text)
  | none =>
    if writable then
      (some env.defaultConfigText, ProxyConfig.load env.yaml env.url env.defaultConfigText)
    else (none, .error "failed to create default config")

/-- `shared_service_auth_config`, given the outcome of the reload (none when
the relay has no configuration path). -/
def sharedServiceAuthConfig (reload : Option (Except String ProxyConfig))
    (fallback : SharedServiceConfig) : SharedServiceConfig :=
  match reload with
  | none => fallback
  | some (.ok proxyConfig) =>
    match proxyConfig.sharedService with
    | some sharedService => sharedService
    | none => fallback
  | some (.error _) => fallback

def sharedTokenMatches (now : UtcTime) (tokenConfig : SharedServiceToken)
    (tokenValue serverSalt : Text) : Bool :=
  let expired := match tokenConfig.expiresAt.bind env.parseRfc3339 with
    | some expiresAt => decide (expiresAt ≤ now)
    | none => false
  if !tokenConfig.enabled then false
  else if expired then false
  else if !tokenConfig.token.isEmpty && tokenConfig.token == tokenValue then true
  else
    !tokenConfig.tokenHash.isEmpty && !serverSalt.isEmpty &&
      tokenConfig.tokenHash == env.hashToken tokenValue serverSalt

def sharedTokenIsValid (now : UtcTime) (authConfig : SharedServiceConfig)
    (tokenValue : Text) : Bool :=
  authConfig.tokens.any (fun t => sharedTokenMatches env now t tokenValue authConfig.serverSalt) ||
    authConfig.authTokens.any (· == tokenValue)

/-- What `handle_connect` has established when it asks for a port. -/
structure ConnectRequest where
  token : Option Text
  targetHost : Text
  targetPort : UInt16
  fixedPort : Option UInt16
  deriving DecidableEq

/-- The words after `CONNECT`: an optional token, a host and a port. -/
def connectTarget (authConfig : SharedServiceConfig) (target : Text) :
    Except Text (Option Text × Text × UInt16) :=
  match splitn ':' 3 target with
  | [token, host, port] =>
    if (trim token).isEmpty then .error "ERROR Invalid token\n".toList
    else .ok (some (trim token), trim host, (parseU16 port).getD 0)
  | [host, port] =>
    if !authConfig.allowAnonymous then .error "ERROR Token required\n".toList
    else .ok (none, host, (parseU16 port).getD 0)
  | _ => .error "ERROR Invalid format. Use token:host:port or host:port\n".toList

/-- The fixed port of the first token entry that matches. -/
def fixedPortFor (now : UtcTime) (authConfig : SharedServiceConfig) (token : Option Text) :
    Option UInt16 :=
  token.bind (fun tokenValue =>
    (authConfig.tokens.find?
      (fun t => sharedTokenMatches env now t tokenValue authConfig.serverSalt)).bind
        SharedServiceToken.fixedPort)

/-- `handle_connect` up to the allocation of a port: either the response that
refuses the request, or what is passed on to `allocate_or_wait_for_port`. -/
def connectGate (now : UtcTime) (config authConfig : SharedServiceConfig) (target : Text) :
    Except Text ConnectRequest :=
  match connectTarget authConfig target with
  | .error response => .error response
  | .ok (token, targetHost, targetPort) =>
    if targetPort = 0 then .error "ERROR Invalid port\n".toList
    else if token.any (fun tokenValue => !sharedTokenIsValid env now authConfig tokenValue) then
      .error "ERROR Invalid token\n".toList
    else
      match fixedPortFor env now authConfig token with
      | none => .ok ⟨token, targetHost, targetPort, none⟩
      | some fixedPort =>
        if fixedPort < config.portRange.start || config.portRange.finish < fixedPort then
          .error (s!"ERROR Fixed port {fixedPort.toNat} is outside port range "
            ++ s!"{config.portRange.start.toNat}-{config.portRange.finish.toNat}\n").toList
        else .ok ⟨token, targetHost, targetPort, some fixedPort⟩

/-- `handle_token_validation`. -/
def handleTokenValidation (now : UtcTime) (authConfig : SharedServiceConfig) (request : Text) :
    Text :=
  match splitWhitespace request with
  | _ :: token :: _ =>
    if sharedTokenIsValid env now authConfig token then "OK Token valid\n".toList
    else "ERROR Invalid token\n".toList
  | _ =>
    if authConfig.allowAnonymous then "OK Anonymous allowed\n".toList
    else "ERROR Token required\n".toList

/-- The two requests that present a token. -/
inductive AuthRequest where
  | connect (request : Text)
  | token (request : Text)

/-- Whether the handler gets as far as reloading the configuration. -/
def AuthRequest.reloads : AuthRequest → Bool
  | .connect request => 2 ≤ (splitWhitespace request).length
  | .token _ => true

/-- `handle_connect` on the whole request, up to the allocation. -/
def handleConnect (now : UtcTime) (config authConfig : SharedServiceConfig) (request : Text) :
    Except Text ConnectRequest :=
  match splitWhitespace request with
  | _ :: target :: _ => connectGate env now config authConfig target
  | _ => .error "ERROR Usage: CONNECT <token:host:port> or CONNECT <host:port>\n".toList

/-- The token a request is accepted with: `CONNECT` goes on to allocate a port
for it, `TOKEN` answers that it is valid. -/
def AuthRequest.accepts (now : UtcTime) (config authConfig : SharedServiceConfig) :
    AuthRequest → Option Text
  | .connect request =>
    match handleConnect env now config authConfig request with
    | .ok admitted => admitted.token
    | .error _ => none
  | .token request =>
    if handleTokenValidation env now authConfig request = "OK Token valid\n".toList then
      (splitWhitespace request)[1]?
    else none

variable {now : UtcTime} {config authConfig : SharedServiceConfig} {tokenValue : Text}

/-- What is passed on to the allocation is what was asked for, with a valid token. -/
theorem connectGate_eq_ok {target : Text} {admitted : ConnectRequest}
    (h : connectGate env now config authConfig target = .ok admitted) :
    connectTarget authConfig target =
        .ok (admitted.token, admitted.targetHost, admitted.targetPort) ∧
      ∀ tokenValue, admitted.token = some tokenValue →
        sharedTokenIsValid env now authConfig tokenValue = true := by
  unfold connectGate at h
  cases htarget : connectTarget authConfig target with
  | error response =>
    rw [htarget] at h
    cases h
  | ok parsed =>
    obtain ⟨token, host, port⟩ := parsed
    rw [htarget] at h
    dsimp only at h
    split at h
    · cases h
    · split at h
      · cases h
      · rename_i hvalid
        have hsame : (token, host, port) =
            (admitted.token, admitted.targetHost, admitted.targetPort) := by
          split at h
          · cases h
            rfl
          · split at h <;> cases h
            rfl
        cases hsame
        refine ⟨rfl, fun tokenValue htoken => ?_⟩
        rw [htoken] at hvalid
        simpa using hvalid

theorem handleTokenValidation_valid {request : Text}
    (h : handleTokenValidation env now authConfig request = "OK Token valid\n".toList)
    (htoken : (splitWhitespace request)[1]? = some tokenValue) :
    sharedTokenIsValid env now authConfig tokenValue = true := by
  unfold handleTokenValidation at h
  split at h
  · rename_i hwords
    rw [hwords] at htoken
    cases htoken
    by_contra hvalid
    rw [if_neg hvalid] at h
    exact absurd h (by decide)
  · split at h <;> exact absurd h (by decide)

/-- **One request.**  A token is accepted only if the configuration that the
request checks it against has it. -/
theorem AuthRequest.accepts_valid {request : AuthRequest}
    (h : request.accepts env now config authConfig = some tokenValue) :
    sharedTokenIsValid env now authConfig tokenValue = true := by
  cases request with
  | connect text =>
    unfold AuthRequest.accepts at h
    dsimp only at h
    split at h
    · rename_i admitted hadmitted
      unfold handleConnect at hadmitted
      split at hadmitted
      · exact (connectGate_eq_ok env hadmitted).2 _ h
      · cases hadmitted
    · cases h
  | token text =>
    unfold AuthRequest.accepts at h
    dsimp only at h
    split at h
    · rename_i hanswer
      exact handleTokenValidation_valid env hanswer h
    · cases h

end

/-! ## The file over time -/

/-- An accepted token, with what the history knew at that moment: the latest
version of the file that loaded with a `sharedService` section, and whether
the current content is such a version. -/
structure AcceptedToken where
  token : Text
  now : UtcTime
  latest : SharedServiceConfig
  current : Bool

/-- The configuration file (none while it is missing) and the accepted tokens. -/
structure AuthRun (Document : Type) where
  file : Option Document
  latest : SharedServiceConfig
  accepted : List AcceptedToken := []

/-- What happens to the file and at the control port.  A request says when it
is handled and whether a missing file could be created. -/
inductive AuthEvent (Document : Type) where
  | fileWritten (content : Document)
  | fileRemoved
  | request (now : UtcTime) (writable : Bool) (request : AuthRequest)

section

variable {Document : Type} (env : RelayEnv Document)

/-- The `sharedService` section of a version of the file, if it loads and has
one. -/
def RelayEnv.sharedService (content : Document) : Option SharedServiceConfig :=
  match ProxyConfig.load env.yaml env.url content with
  | .ok proxyConfig => proxyConfig.sharedService
  | .error _ => none

/-- The file has a new content. -/
def AuthRun.observe (s : AuthRun Document) (file : Option Document) : AuthRun Document :=
  { s with file := file, latest := (file.bind env.sharedService).getD s.latest }

/-- One event.  `startup` is the configuration the relay was started with. -/
def AuthRun.step (startup : SharedServiceConfig) (s : AuthRun Document) :
    AuthEvent Document → Option (AuthRun Document)
  | .fileWritten content => some (s.observe env (some content))
  | .fileRemoved => some (s.observe env none)
  | .request now writable request =>
    if request.reloads then
      let (file, reload) := env.loadPath s.file writable
      let authConfig := sharedServiceAuthConfig (some reload) startup
      let after := s.observe env file
      match request.accepts env now startup authConfig with
      | none => some after
      | some token =>
        some { after with
          accepted := s.accepted ++
            [⟨token, now, after.latest, (file.bind env.sharedService).isSome⟩] }
    else some s

/-- The relay is started from a version of the file with the given section. -/
def AuthRun.start (content : Document) (startup : SharedServiceConfig) : AuthRun Document where
  file := some content
  latest := startup

/-- The configuration a request checks tokens against: the current version of
the file if it loads with a `sharedService` section, else the one from
start-up. -/
theorem authConfig_eq (startup : SharedServiceConfig) (file : Option Document) (writable : Bool) :
    sharedServiceAuthConfig (some (env.loadPath file writable).2) startup =
      ((env.loadPath file writable).1.bind env.sharedService).getD startup := by
  have hsection : ∀ content : Document,
      sharedServiceAuthConfig (some (ProxyConfig.load env.yaml env.url content)) startup =
        (env.sharedService content).getD startup := by
    intro content
    unfold sharedServiceAuthConfig RelayEnv.sharedService
    cases ProxyConfig.load env.yaml env.url content with
    | error message => rfl
    | ok proxyConfig =>
      dsimp only
      cases proxyConfig.sharedService <;> rfl
  cases file with
  | some content => exact hsection content
  | none =>
    cases writable with
    | true => exact hsection env.defaultConfigText
    | false => rfl

/-- What an accepted token is valid in. -/
def AcceptedToken.Justified (startup : SharedServiceConfig) (a : AcceptedToken) : Prop :=
  (a.current = true → sharedTokenIsValid env a.now a.latest a.token = true) ∧
    (a.current = false → sharedTokenIsValid env a.now startup a.token = true)

theorem AuthRun.step_justified {startup : SharedServiceConfig} {s t : AuthRun Document}
    {event : AuthEvent Document} (hstep : s.step env startup event = some t)
    (hs : ∀ a ∈ s.accepted, a.Justified env startup) :
    ∀ a ∈ t.accepted, a.Justified env startup := by
  cases event with
  | fileWritten | fileRemoved =>
    cases hstep
    exact hs
  | request now writable request =>
    unfold AuthRun.step at hstep
    dsimp only at hstep
    by_cases hreloads : request.reloads = true
    · rw [if_pos hreloads, authConfig_eq] at hstep
      generalize (env.loadPath s.file writable).1 = file at hstep
      split at hstep <;> cases hstep
      · exact hs
      · next haccepts =>
        have hvalid := AuthRequest.accepts_valid env haccepts
        intro a ha
        rcases List.mem_append.mp ha with hold | hnew
        · exact hs a hold
        · cases List.mem_singleton.mp hnew
          -- the section of the current content decides both what the code
          -- checks and which half of the statement applies
          cases hsection : file.bind env.sharedService with
          | some sharedService =>
            rw [hsection] at hvalid
            refine ⟨fun _ => ?_, fun hcurrent => ?_⟩
            · simpa [AuthRun.observe, hsection] using hvalid
            · cases hcurrent
          | none =>
            rw [hsection] at hvalid
            refine ⟨fun hcurrent => ?_, fun _ => hvalid⟩
            cases hcurrent
    · rw [if_neg hreloads] at hstep
      cases hstep
      exact hs

/-- **Which configuration an accepted token is valid in.**  In every history
of the file and of the requests, a token is accepted only if it is valid in
the latest version of the file that loaded with a `sharedService` section,
when that version is the file's current content, and otherwise only if it is
valid in the configuration from start-up. -/
theorem accepted_tokens_valid {startup : SharedServiceConfig} {content : Document}
    {s : AuthRun Document}
    (hreach : Runs.Reaches (AuthRun.step env startup) Runs.Always
      (AuthRun.start content startup) s) :
    ∀ a ∈ s.accepted,
      (a.current = true → sharedTokenIsValid env a.now a.latest a.token = true) ∧
        (a.current = false → sharedTokenIsValid env a.now startup a.token = true) := by
  have hjustified : ∀ a ∈ s.accepted, a.Justified env startup := by
    apply hreach.invariant
    · intro a ha
      cases ha
    · intro s event t hs _ hstep
      exact AuthRun.step_justified env hstep hs
  exact hjustified

end

/-! ## A token that comes back -/

/-- Configuration texts that either are a configuration or do not parse. -/
def fragileYaml : SerdeYaml (Option ProxyConfig) where
  fromStr
    | some c => plainYaml.fromStr c
    | none => .error "failed to parse config"
  toString c := some c
  fromStr_toString c := plainYaml.fromStr_toString c
  fromStr_skipped := by
    intro text c h
    cases text with
    | none => cases h
    | some parsed => exact plainYaml.fromStr_skipped h

def fragileEnv : RelayEnv (Option ProxyConfig) where
  yaml := fragileYaml
  url := oneUrl
  defaultConfigText := some { listeners := [] }
  hashToken token salt := token ++ salt
  parseRfc3339 _ := none

/-- A relay section with one token. -/
def tenantService : SharedServiceConfig where
  tokens := [{ token := "tenant".toList }]

/-- A relay configuration with the given section. -/
def relayConfig (sharedService : SharedServiceConfig) : ProxyConfig where
  sharedService := some sharedService
  listeners := []

/-- `TOKEN tenant` while the token is in the file. -/
theorem accepted_tokens_valid_tenant : let s : AuthRun (Option ProxyConfig) :=
      ⟨some (some (relayConfig tenantService)), tenantService,
        [⟨"tenant".toList, 0, tenantService, true⟩]⟩
    Runs.Reaches (AuthRun.step fragileEnv tenantService) Runs.Always
        (AuthRun.start (some (relayConfig tenantService)) tenantService) s ∧
      ∀ a ∈ s.accepted,
        (a.current = true → sharedTokenIsValid fragileEnv a.now a.latest a.token = true) ∧
          (a.current = false → sharedTokenIsValid fragileEnv a.now tenantService a.token = true) := by
  intro s
  have hrun : Runs.run (AuthRun.step fragileEnv tenantService)
      (AuthRun.start (some (relayConfig tenantService)) tenantService)
      [.request 0 true (.token "TOKEN tenant".toList)] = some s := rfl
  have hreach := Runs.reaches_of_run hrun
  exact ⟨hreach, accepted_tokens_valid fragileEnv hreach⟩

/-- The token is deleted from the file, and a later version of the file does
not parse: the deleted token is accepted again. -/
theorem revoked_token_returns :
    fragileEnv.sharedService (some (relayConfig tenantService)) = some tenantService ∧
      ¬ ∀ s, Runs.Reaches (AuthRun.step fragileEnv tenantService) Runs.Always
          (AuthRun.start (some (relayConfig tenantService)) tenantService) s →
        ∀ a ∈ s.accepted, sharedTokenIsValid fragileEnv a.now a.latest a.token = true := by
  refine ⟨rfl, ?_⟩
  intro hrevoked
  have hreturns : Runs.run (AuthRun.step fragileEnv tenantService)
      (AuthRun.start (some (relayConfig tenantService)) tenantService)
      [.fileWritten (some (relayConfig {})), .fileWritten none,
        .request 0 true (.token "TOKEN tenant".toList)] =
      some ⟨some none, {}, [⟨"tenant".toList, 0, {}, false⟩]⟩ := rfl
  have hvalid := hrevoked _ (Runs.reaches_of_run hreturns) _ List.mem_cons_self
  exact absurd hvalid (by decide)

end FerrumProxy
