import FerrumProxy.IssuedTokens
import FerrumProxy.ManagerSecrets

/-!
# The expiry of relay tokens and of credentials

Tokens of the relay and credentials of the manager are issued with a number of seconds and
checked against the text of an expiry, by two modules that do not share the code.  The
credential store refuses a time that chrono cannot represent and a text that it cannot parse;
the relay panics on the first and takes the second for no expiry.
-/

namespace FerrumProxy

open Str

/-! ## Checking -/

/-- The token is the configured one, or has its hash. -/
def SecretMatches {Document : Type} (env : RelayEnv Document) (token : SharedServiceToken)
    (tokenValue serverSalt : Text) : Prop :=
  (token.token ≠ [] ∧ token.token = tokenValue) ∨
    (token.tokenHash ≠ [] ∧ serverSalt ≠ [] ∧ token.tokenHash = env.hashToken tokenValue serverSalt)

theorem sharedTokenMatches_eq {Document : Type} {env : RelayEnv Document}
    {token : SharedServiceToken} {tokenValue serverSalt : Text} (henabled : token.enabled = true)
    (hsecret : SecretMatches env token tokenValue serverSalt) (now : UtcTime) :
    sharedTokenMatches env now token tokenValue serverSalt =
      (token.expiresAt.bind env.parseRfc3339).all (fun expiry => decide (now < expiry)) := by
  have hmatch : (if !token.token.isEmpty && token.token == tokenValue then true
      else !token.tokenHash.isEmpty && !serverSalt.isEmpty &&
        token.tokenHash == env.hashToken tokenValue serverSalt) = true := by
    cases hsecret with
    | inl h => simp [h.1, ← h.2]
    | inr h => simp [h.1, h.2.1, ← h.2.2]
  simp only [sharedTokenMatches, henabled, hmatch, Bool.not_true, Bool.false_eq_true, if_false]
  cases token.expiresAt.bind env.parseRfc3339 with
  | none => rfl
  | some expiry =>
    by_cases hexpired : expiry ≤ now
    · simp [hexpired, Rat.not_lt.mpr hexpired]
    · simp [hexpired, Rat.not_le.mp hexpired]

theorem permitsWith_eq {sha : Sha256} {data : SecretsData} {item : Credential} {token scope : Text}
    (hdata : data.credentials = [item])
    (hhash : sha.tokensEqual item.tokenHash (sha.hashToken token data.salt) = true)
    (hscope : scope ∈ item.scopes) (parseRfc3339 : Text → Option UtcTime) (now : UtcTime) :
    data.permitsWith sha parseRfc3339 now token scope = item.unexpired parseRfc3339 now := by
  have hany : item.scopes.any (· == scope) = true :=
    List.any_eq_true.mpr ⟨scope, hscope, beq_self_eq_true scope⟩
  simp [SecretsData.permitsWith, hdata, hhash, hany]

/-- At every time the relay and the store treat an expiry alike exactly when there is none or its
text can be parsed. -/
theorem expiry_agrees_iff {Document : Type} {env : RelayEnv Document} {token : SharedServiceToken}
    {tokenValue serverSalt : Text} (henabled : token.enabled = true)
    (hsecret : SecretMatches env token tokenValue serverSalt) {sha : Sha256} {data : SecretsData}
    {item : Credential} {credentialValue scope : Text} (hdata : data.credentials = [item])
    (hhash : sha.tokensEqual item.tokenHash (sha.hashToken credentialValue data.salt) = true)
    (hscope : scope ∈ item.scopes) (hexpiry : item.expiresAt = token.expiresAt) (now : UtcTime) :
    sharedTokenMatches env now token tokenValue serverSalt =
        data.permitsWith sha env.parseRfc3339 now credentialValue scope ↔
      ∀ text, token.expiresAt = some text → env.parseRfc3339 text ≠ none := by
  simp only [sharedTokenMatches_eq henabled hsecret, permitsWith_eq hdata hhash hscope,
    Credential.unexpired, hexpiry]
  cases token.expiresAt with
  | none => simp
  | some text => cases hparse : env.parseRfc3339 text <;> simp [hparse]

/-- A token of the relay and a credential with an expiry. -/
def expiringToken (expiry : Text) : SharedServiceToken :=
  { token := "fp_1".toList, expiresAt := some expiry }

def expiringData (expiry : Text) : SecretsData :=
  { salt := "salt".toList
    credentials := [{ id := "cred_1".toList, name := "ops".toList, scopes := ["health:read".toList]
                      createdAt := [], expiresAt := some expiry
                      tokenHash := firstBytes.hashToken "fpc_1".toList "salt".toList }] }

/-- One second before the expiry. -/
theorem expiry_agrees_iff_day :
    sharedTokenMatches oneDayEnv 86399 (expiringToken "2026-01-02T00:00:00+00:00".toList)
        "fp_1".toList [] =
      (expiringData "2026-01-02T00:00:00+00:00".toList).permitsWith firstBytes
        oneDayEnv.parseRfc3339 86399 "fpc_1".toList "health:read".toList := by
  refine (expiry_agrees_iff rfl (.inl ⟨by decide, rfl⟩) rfl (by decide +kernel)
    (by decide +kernel) rfl 86399).mpr ?_
  intro text htext
  cases htext
  decide +kernel

/-- A date without a time, long after it: the relay still accepts the token, the store does not. -/
theorem date_never_expires :
    sharedTokenMatches oneDayEnv 4923072000 (expiringToken "2026-01-02".toList) "fp_1".toList [] =
        true ∧
      (expiringData "2026-01-02".toList).permitsWith firstBytes oneDayEnv.parseRfc3339 4923072000
        "fpc_1".toList "health:read".toList = false := by
  constructor
  · rfl
  · rw [permitsWith_eq rfl (by decide +kernel) (by decide +kernel)]
    rfl

/-! ## Issuing -/

/-- What the file system does while a token is issued. -/
structure IssueDisk (Document : Type) extends Disk Document where
  /-- The default file cannot be written, and what the attempt leaves. -/
  createError : Option (Option Document) := none

section

variable {Document : Type} (env : RelayEnv Document) (debug : Text → String)

/-- `ProxyConfig::load`, which creates a missing file; first the file afterwards. -/
def IssueDisk.loadPath (disk : IssueDisk Document) (file : Option Document) :
    Option Document × Except String ProxyConfig :=
  match file, disk.createError with
  | some text, _ => (file, disk.load env.yaml env.url text)
  | none, some left => (left, .error "failed to create default config")
  | none, none =>
    (some env.defaultConfigText, disk.load env.yaml env.url env.defaultConfigText)

/-- The draw with the times of a clock; those that chrono cannot represent are not used. -/
def TokenDraw.withClock (draw : TokenDraw) (later : Int → Option Text) : TokenDraw :=
  { draw with later := fun seconds => (later seconds).getD [] }

variable (payload : IssueTokenRequest) (draw : TokenDraw) (later : Int → Option Text)

/-- The checks of the request and what it makes of the configuration. -/
def issueEdit (config : ProxyConfig) : Except ManagerResponse (ProxyConfig × IssueTokenResponse) :=
  issueTokenInner env.hashToken debug payload (draw.withClock later) config

/-- Adding the seconds to the clock panics. -/
def expiryPanics : Bool := payload.expiresIn.any (fun seconds => (later seconds).isNone)

/-- `issue_token_inner` with its file: the outcome (`none` is a panic), and the file afterwards.
The clock is read after the checks and before anything is saved. -/
def issueToken (disk : IssueDisk Document) (file : Option Document) :
    Option (Except ManagerResponse IssueTokenResponse) × Option Document :=
  match disk.loadPath env file with
  | (found, .error message) => (some (.error ⟨.internalServerError, some message⟩), found)
  | (found, .ok config) =>
    match issueEdit env debug payload draw later config with
    | .error response => (some (.error response), found)
    | .ok (changed, response) =>
      if expiryPanics payload later then (none, found)
      else
        match disk.saveError with
        | none => (some (.ok response), some (changed.save env.yaml))
        | some (message, left) =>
          (some (.error ⟨.internalServerError, some message⟩), some left)

/-- The request finds this configuration: that of the file, or of the default file that is created
where there is none. -/
def IssueDisk.Finds (disk : IssueDisk Document) (file : Option Document) (config : ProxyConfig) :
    Prop :=
  (file ≠ none ∨ disk.createError = none) ∧ disk.readError = none ∧
    ProxyConfig.load env.yaml env.url (file.getD env.defaultConfigText) = .ok config

/-- What a request is checked for against the shared service of the configuration. -/
structure IssueTokenRequest.Passes (config : ProxyConfig) : Prop where
  name : trim payload.name ≠ [] ∧ byteLen (trim payload.name) ≤ 80
  unused : ∀ token ∈ config.tokens, token.name ≠ trim payload.name
  fixedPort : ∀ port, payload.fixedPort = some port →
    ((config.sharedService.getD defaultSharedService).portRange.start ≤ port ∧
      port ≤ (config.sharedService.getD defaultSharedService).portRange.finish) ∧
      ∀ token ∈ config.tokens, token.fixedPort ≠ some port
  seconds : ∀ seconds, payload.expiresIn = some seconds → 0 < seconds

/-- A missing file is not created, or for a request that passes its checks; and such a request has
an expiry that can be represented, and its save does not fail leaving another content. -/
def IssueSafe (disk : IssueDisk Document) (file : Option Document) : Prop :=
  (file = none → disk.createError = some none ∨
    ∃ config, disk.Finds env file config ∧ payload.Passes config) ∧
  ∀ config, disk.Finds env file config → payload.Passes config →
    (∀ seconds, payload.expiresIn = some seconds → later seconds ≠ none) ∧
      ∀ message left, disk.saveError = some (message, left) → some left = file

variable {disk : IssueDisk Document} {file : Option Document} {config : ProxyConfig}

theorem finds_iff : disk.Finds env file config ↔ (disk.loadPath env file).2 = .ok config := by
  unfold IssueDisk.Finds IssueDisk.loadPath Disk.load
  cases file with
  | some text => cases disk.readError <;> simp
  | none => cases disk.createError <;> cases disk.readError <;> simp

theorem loadPath_fst :
    (disk.loadPath env file).1 = file ↔ (file = none → disk.createError = some none) := by
  unfold IssueDisk.loadPath
  cases file with
  | some text => simp
  | none => cases disk.createError <;> simp

theorem expiryPanics_eq_false : expiryPanics payload later = false ↔
    ∀ seconds, payload.expiresIn = some seconds → later seconds ≠ none := by
  unfold expiryPanics
  cases payload.expiresIn <;> simp [Option.isSome_iff_ne_none]

theorem isSome_bind {α : Type} {check : Except ManagerResponse Unit}
    {next : Unit → Except ManagerResponse α} :
    (check >>= next).toOption.isSome = true ↔
      check = .ok () ∧ (next ()).toOption.isSome = true := by
  cases check with
  | error response => exact iff_of_false Bool.false_ne_true (fun h => by cases h.1)
  | ok done => exact (and_iff_right rfl).symm

theorem checkFixedPort_iff {shared : SharedServiceConfig} {fixedPort : Option UInt16} :
    checkFixedPort shared fixedPort = .ok () ↔ ∀ port, fixedPort = some port →
      (shared.portRange.start ≤ port ∧ port ≤ shared.portRange.finish) ∧
        ∀ token ∈ shared.tokens, token.fixedPort ≠ some port := by
  cases fixedPort with
  | none => simp [checkFixedPort]
  | some port => simp [checkFixedPort, Wire.bind_eq_ok, Unique.exists_iff, require_eq_ok]

/-- `issue_token_inner` goes on to its edit exactly when the request passes its checks. -/
theorem issueEdit_isSome :
    (issueEdit env debug payload draw later config).toOption.isSome = true ↔
      payload.Passes config := by
  simp only [issueEdit, issueTokenInner, isSome_bind, require_eq_ok, checkFixedPort_iff]
  constructor
  · intro h
    obtain ⟨hname, hunused, hport, hseconds, _⟩ := h
    exact ⟨by simpa using hname, by simpa [ProxyConfig.tokens] using hunused, hport,
      by simpa [Option.all_eq_true] using hseconds⟩
  · intro h
    exact ⟨by simpa using h.name, by simpa [ProxyConfig.tokens] using h.unused, h.fixedPort,
      by simpa [Option.all_eq_true] using h.seconds, rfl⟩

theorem issueWith_isSome {sha : Sha256} {name : Text} {scopes : List Text} {issued : IssueDraw}
    {data : SecretsData} (expiresIn : Option Int)
    (hrest : (data.issueWith sha name scopes none issued).toOption.isSome = true) :
    (data.issueWith sha name scopes expiresIn issued).toOption.isSome =
      (expiryFrom issued.later expiresIn).toOption.isSome := by
  unfold SecretsData.issueWith at hrest ⊢
  revert hrest
  generalize ensure _ "name must be 1-80 characters" = named
  generalize ensure _ "Provide 1-32 explicit scopes" = counted
  generalize scopes.forM (checkScope data) = checked
  generalize expiryFrom issued.later expiresIn = expiry
  intro hrest
  cases named <;> cases counted <;> cases checked <;> try cases hrest
  cases expiry <;> rfl

theorem expiryFrom_isSome (expiresIn : Option Int) :
    (expiryFrom later expiresIn).toOption.isSome =
      (expiresIn.all (fun seconds => decide (0 < seconds)) &&
        !expiresIn.any (fun seconds => (later seconds).isNone)) := by
  cases expiresIn with
  | none => rfl
  | some seconds =>
    by_cases hpositive : 0 < seconds
    · cases hlater : later seconds <;> simp [expiryFrom, ensure, hpositive, hlater] <;> rfl
    · simp [expiryFrom, ensure, hpositive]
      rfl

/-- A token is issued if the configuration is found, the request passes its checks, the expiry
can be represented and the configuration is saved. -/
theorem issueToken_issues (hfinds : disk.Finds env file config) (hsave : disk.saveError = none) :
    (∃ response, (issueToken env debug payload draw later disk file).1 = some (.ok response)) ↔
      payload.Passes config ∧ expiryPanics payload later = false := by
  have hload := (finds_iff env).mp hfinds
  rw [← issueEdit_isSome env debug payload draw later]
  unfold issueToken
  generalize disk.loadPath env file = loaded at hload ⊢
  obtain ⟨found, _⟩ := loaded
  cases hload
  dsimp only
  cases issueEdit env debug payload draw later config with
  | error response => simp [Except.toOption]
  | ok edited =>
    rw [hsave]
    cases expiryPanics payload later <;> simp [Except.toOption]

theorem issueToken_safe_iff (disk : IssueDisk Document) (file : Option Document) :
    ((issueToken env debug payload draw later disk file).1 ≠ none ∧
      ∀ response, (issueToken env debug payload draw later disk file).1 = some (.error response) →
        (issueToken env debug payload draw later disk file).2 = file) ↔
      IssueSafe env payload later disk file := by
  unfold issueToken IssueSafe
  have hfound : (disk.loadPath env file).1 = file ↔ _ := loadPath_fst env
  simp only [finds_iff, ← issueEdit_isSome env debug payload draw later,
    ← expiryPanics_eq_false payload later]
  generalize disk.loadPath env file = outcome at hfound ⊢
  obtain ⟨found, loaded⟩ := outcome
  cases loaded with
  | error message => simpa using hfound
  | ok config =>
    cases hedit : issueEdit env debug payload draw later config with
    | error response => simpa [Except.toOption, hedit] using hfound
    | ok edited =>
      obtain ⟨changed, response⟩ := edited
      cases hpanic : expiryPanics payload later with
      | true => simp [Except.toOption, hedit]
      | false =>
        cases hsave : disk.saveError with
        | none => simp [Except.toOption, hedit]
        | some failure =>
          obtain ⟨message, left⟩ := failure
          simp [Except.toOption, hedit]

/-- Issuing a token returns and leaves the file as it was after an error exactly when it is safe;
and with all else in order it accepts the seconds that the credential store accepts. -/
theorem issue_token_safe_iff (disk : IssueDisk Document) (file : Option Document) :
    (((issueToken env debug payload draw later disk file).1 ≠ none ∧
      ∀ response, (issueToken env debug payload draw later disk file).1 = some (.error response) →
        (issueToken env debug payload draw later disk file).2 = file) ↔
      IssueSafe env payload later disk file) ∧
    ∀ config, disk.Finds env file config → disk.saveError = none →
      IssueTokenRequest.Passes { payload with expiresIn := none } config →
      ∀ (sha : Sha256) name scopes (issued : IssueDraw) (data : SecretsData),
        issued.later = later → (data.issueWith sha name scopes none issued).toOption.isSome →
        ((∃ response, (issueToken env debug payload draw later disk file).1 = some (.ok response)) ↔
          ∃ answer, data.issueWith sha name scopes payload.expiresIn issued = .ok answer) := by
  refine ⟨issueToken_safe_iff env debug payload draw later disk file, ?_⟩
  intro config hfinds hsave hrest sha name scopes issued data hclock hissue
  have hstore : (∃ answer, data.issueWith sha name scopes payload.expiresIn issued = .ok answer) ↔
      (data.issueWith sha name scopes payload.expiresIn issued).toOption.isSome = true := by
    cases data.issueWith sha name scopes payload.expiresIn issued <;> simp [Except.toOption]
  have hpasses : payload.Passes config ↔
      payload.expiresIn.all (fun seconds => decide (0 < seconds)) = true := by
    rw [Option.all_eq_true]
    simp only [decide_eq_true_eq]
    exact ⟨fun h => h.seconds, fun h => ⟨hrest.name, hrest.unused, hrest.fixedPort, h⟩⟩
  rw [issueToken_issues env debug payload draw later hfinds hsave, hpasses, hstore,
    issueWith_isSome payload.expiresIn hissue, hclock, expiryFrom_isSome, Bool.and_eq_true,
    Bool.not_eq_true']
  rfl

end

/-- A day, with the clock of `oneDayEnv`, for a relay and a store without tokens. -/
theorem issue_token_safe_for_day :
    (∃ response, (issueToken oneDayEnv quoted
        { name := "alpha".toList, expiresIn := some 86400 } (drawOf "1") (fun _ => some []) {}
        (some { listeners := [] })).1 = some (.ok response)) ↔
      ∃ answer, SecretsData.issueWith firstBytes "alpha".toList ["health:read".toList] (some 86400)
        { salt := "salt".toList, raw := [], id := [], now := [], later := fun _ => some []
          salt_ne := by decide } {} = .ok answer :=
  (issue_token_safe_iff oneDayEnv quoted { name := "alpha".toList, expiresIn := some 86400 }
    (drawOf "1") (fun _ => some []) {} (some { listeners := [] })).2 { listeners := [] }
    ⟨.inl (by simp), rfl, rfl⟩ rfl ⟨by decide +kernel, by decide +kernel, by simp, by simp⟩
    firstBytes _ _ _ _ rfl (by decide +kernel)

/-- An expiry after the last time that chrono has: the relay panics, the store answers. -/
theorem large_expiry_panics :
    (issueToken oneDayEnv quoted { name := "alpha".toList, expiresIn := some 9223372036854775807 }
        (drawOf "1") (fun seconds => if seconds ≤ 8000000000000 then some [] else none) {}
        (some { listeners := [] })).1.isNone = true ∧
      (expiryFrom (fun seconds => if seconds ≤ 8000000000000 then some [] else none)
        (some 9223372036854775807)).toOption.isNone = true := by
  decide +kernel

end FerrumProxy
