import FerrumProxy.ManagerUpdates
import FerrumProxy.RelayAuth
import FerrumProxy.TokenSecurity

/-!
# What an issued relay token is worth

The manager API issues a relay token by storing its salted hash, and deletes one by its id or its
name; the salt is generated with the first token.  The relay accepts a token if some stored entry
matches it.
-/

namespace FerrumProxy

open Str

/-! ## Runs -/

/-- A token as it was issued: its name, the answer, and the time at which it
expires. -/
structure TokenIssue where
  name : Text
  response : IssueTokenResponse
  expiry : Option UtcTime

/-- What the API has answered. -/
inductive TokenEvent where
  | issued (issue : TokenIssue)
  | deleted (id : Text)

/-- The requests; a token is issued at some time of the clock. -/
inductive TokenRequest where
  | issue (payload : IssueTokenRequest) (draw : TokenDraw) (clock : UtcTime)
  | delete (id : Text)

def TokenRequest.toConfigRequest : TokenRequest → ConfigRequest
  | .issue payload draw _ => .issue payload draw
  | .delete id => .delete id

/-- The configuration file, and the successful requests so far. -/
structure TokenRun (Document : Type) where
  document : Document
  log : List TokenEvent := []

/-- The token was issued, and no later deletion named its id or its name. -/
def TokenIssue.Outstanding (issue : TokenIssue) (log : List TokenEvent) : Prop :=
  ∃ before after, log = before ++ .issued issue :: after ∧
    ∀ id, .deleted id ∈ after → id ≠ issue.response.id ∧ id ≠ issue.name

def TokenIssue.UnexpiredAt (issue : TokenIssue) (now : UtcTime) : Prop :=
  issue.expiry = none ∨ ∃ expiry, issue.expiry = some expiry ∧ now < expiry

/-- The section that the API edits. -/
def ProxyConfig.relayService (config : ProxyConfig) : SharedServiceConfig :=
  config.sharedService.getD defaultSharedService

section Runs

variable {Document : Type} (env : RelayEnv Document) (debug : Text → String)

/-- What a request makes of the loaded configuration, and what is logged. -/
def TokenRequest.perform (config : ProxyConfig) :
    TokenRequest → Except ManagerResponse (Option ProxyConfig × TokenEvent)
  | .issue payload draw clock => do
      let (changed, response) ← issueTokenInner env.hashToken debug payload draw config
      return (some changed,
        .issued ⟨trim payload.name, response, payload.expiresIn.map (fun seconds => clock + seconds)⟩)
  | .delete id => return (deleteToken id config, .deleted id)

/-- One successful request: load, edit, save. -/
def TokenRun.step (s : TokenRun Document) (request : TokenRequest) : Option (TokenRun Document) :=
  match ProxyConfig.load env.yaml env.url s.document with
  | .error _ => none
  | .ok config =>
    match request.perform env debug config with
    | .error _ => none
    | .ok (changed, event) =>
      some ⟨changed.elim s.document (ProxyConfig.save env.yaml), s.log ++ [event]⟩

variable {env debug}

variable {s t : TokenRun Document} {request : TokenRequest}

/-- A request that succeeds loads, edits and saves. -/
theorem TokenRun.step_eq_some (h : s.step env debug request = some t) :
    ∃ config changed event, ProxyConfig.load env.yaml env.url s.document = .ok config ∧
      request.perform env debug config = .ok (changed, event) ∧
      t = ⟨changed.elim s.document (ProxyConfig.save env.yaml), s.log ++ [event]⟩ := by
  unfold TokenRun.step at h
  (repeat' split at h) <;> cases h
  next hload _ _ _ hperform => exact ⟨_, _, _, hload, hperform, rfl⟩

/-- The API serves what a step does. -/
theorem TokenRun.serve_of_step (addresses : AddressSyntax) (h : s.step env debug request = some t) :
    ∃ response, response.isError = false ∧
      Updates.serve (ConfigRequest.react env.hashToken debug env.yaml env.url addresses)
        request.toConfigRequest s.document = (response, t.document) := by
  obtain ⟨config, changed, event, hload, hperform, rfl⟩ := TokenRun.step_eq_some h
  cases request with
  | issue payload draw clock =>
    obtain ⟨⟨edited, response⟩, hissue, heq⟩ := Wire.bind_eq_ok.mp hperform
    cases heq
    refine ⟨⟨.created, none⟩, rfl, ?_⟩
    simp only [Updates.serve, TokenRequest.toConfigRequest, ConfigRequest.react, reactWith, hload,
      hissue, Except.map]
    rfl
  | delete id =>
    cases hperform
    refine ⟨⟨.noContent, none⟩, rfl, ?_⟩
    simp only [Updates.serve, TokenRequest.toConfigRequest, ConfigRequest.react, reactWith, hload]
    cases deleteToken id config <;> rfl

/-- The API on one request, if the answer is no error. -/
def serveOk (env : RelayEnv Document) (debug : Text → String) (addresses : AddressSyntax)
    (document : Document) (request : TokenRequest) : Option Document :=
  let served := Updates.serve (ConfigRequest.react env.hashToken debug env.yaml env.url addresses)
    request.toConfigRequest document
  if served.1.isError then none else some served.2

/-- A run is served by the API, request after request, and leaves the same file. -/
theorem TokenRun.served_of_run (addresses : AddressSyntax) {requests : List TokenRequest}
    (h : Runs.run (TokenRun.step env debug) s requests = some t) :
    Runs.run (serveOk env debug addresses) s.document requests = some t.document := by
  induction requests generalizing s with
  | nil => exact congrArg (Option.map TokenRun.document) h
  | cons request requests ih =>
    obtain ⟨middle, hstep, hrest⟩ := Option.bind_eq_some_iff.mp h
    obtain ⟨response, hok, hserve⟩ := TokenRun.serve_of_step addresses hstep
    simpa [Runs.run, serveOk, hserve, hok] using ih hrest

end Runs

/-! ## Outstanding tokens -/

open List

section Outstanding

variable {issue other : TokenIssue} {log : List TokenEvent}

theorem TokenIssue.Outstanding.mem (h : issue.Outstanding log) : .issued issue ∈ log := by
  obtain ⟨before, after, rfl, _⟩ := h
  exact mem_append_right _ mem_cons_self

theorem not_outstanding_nil : ¬ issue.Outstanding [] :=
  fun h => absurd h.mem not_mem_nil

variable {event : TokenEvent}

/-- What the last event does to an outstanding token. -/
theorem outstanding_concat :
    issue.Outstanding (log ++ [event]) ↔ event = .issued issue ∨
      issue.Outstanding log ∧
        ∀ id, event = .deleted id → id ≠ issue.response.id ∧ id ≠ issue.name := by
  constructor
  · intro ⟨before, after, hlog, hafter⟩
    rcases eq_nil_or_concat' after with rfl | ⟨rest, last, rfl⟩
    · exact .inl (cons.inj (append_inj' hlog rfl).2).1
    · have hsplit : log ++ [event] = (before ++ .issued issue :: rest) ++ [last] := by simpa using hlog
      obtain ⟨hrest, hlast⟩ := append_inj' hsplit rfl
      cases hlast
      refine .inr ⟨⟨before, rest, hrest, fun id hid => hafter id ?_⟩, fun id hid => hafter id ?_⟩
      · exact mem_append_left _ hid
      · exact mem_append_right _ (mem_singleton.mpr hid.symm)
  · intro h
    rcases h with rfl | ⟨⟨before, after, rfl, hafter⟩, hevent⟩
    · exact ⟨log, [], rfl, fun _ h => absurd h not_mem_nil⟩
    · refine ⟨before, after ++ [event], by simp, fun id hid => ?_⟩
      rcases mem_append.mp hid with hid | hid
      · exact hafter id hid
      · exact hevent id (mem_singleton.mp hid).symm

theorem outstanding_issued :
    issue.Outstanding (log ++ [.issued other]) ↔ issue = other ∨ issue.Outstanding log := by
  rw [outstanding_concat]
  constructor
  · intro h
    exact h.imp (fun heq => (TokenEvent.issued.inj heq).symm) And.left
  · intro h
    exact h.imp (congrArg _ ·.symm) (fun h => ⟨h, fun _ heq => nomatch heq⟩)

theorem outstanding_deleted {id : Text} :
    issue.Outstanding (log ++ [.deleted id]) ↔
      issue.Outstanding log ∧ id ≠ issue.response.id ∧ id ≠ issue.name := by
  rw [outstanding_concat]
  constructor
  · intro h
    rcases h with h | ⟨h, hid⟩
    · cases h
    · exact ⟨h, hid id rfl⟩
  · intro ⟨h, hid⟩
    exact .inr ⟨h, fun _ heq => TokenEvent.deleted.inj heq ▸ hid⟩

end Outstanding

/-! ## Stored tokens -/

/-- SHA-256 as the relay uses it, with the raw tokens that are generated or
presented and the salts that are generated, on which it has no collision. -/
structure RelaySecrets {Document : Type} (env : RelayEnv Document) extends Sha256 where
  hashToken_eq : env.hashToken = toSha256.hashToken
  tokens : Set Text
  salts : Set Text
  salt_nonblank : ∀ salt ∈ salts, trim salt ≠ []
  digest_injOn : Set.InjOn digest
    {bytes | ∃ token ∈ tokens, ∃ salt ∈ salts, bytes = toUtf8 token ++ toUtf8 salt}

section Stored

variable {Document : Type} {env : RelayEnv Document} (secrets : RelaySecrets env)

variable {salt value : Text} {token : SharedServiceToken} {s t : TokenRun Document}
  {request : TokenRequest} {event : TokenEvent}

/-- Tokens with one hash are one token. -/
theorem RelaySecrets.hashToken_inj {token other : Text} (htoken : token ∈ secrets.tokens)
    (hother : other ∈ secrets.tokens) (hsalt : salt ∈ secrets.salts)
    (h : env.hashToken token salt = env.hashToken other salt) : token = other := by
  rw [secrets.hashToken_eq] at h
  have hbytes : toUtf8 token ++ toUtf8 salt = toUtf8 other ++ toUtf8 salt :=
    secrets.digest_injOn ⟨token, htoken, salt, hsalt, rfl⟩ ⟨other, hother, salt, hsalt, rfl⟩
      (lowerHex_injective h)
  exact toUtf8_injective (append_cancel_right hbytes)

theorem RelaySecrets.hashToken_ne_nil (secrets : RelaySecrets env) (token salt : Text) :
    env.hashToken token salt ≠ [] := by
  rw [secrets.hashToken_eq]
  intro h
  have hdigest : secrets.digest (toUtf8 token ++ toUtf8 salt) = [] := lowerHex_injective h
  have hlength := secrets.length_digest (toUtf8 token ++ toUtf8 salt)
  rw [hdigest] at hlength
  cases hlength

theorem RelaySecrets.salt_ne_nil (h : salt ∈ secrets.salts) : salt ≠ [] := by
  intro hnil
  exact secrets.salt_nonblank salt h (by rw [hnil]; rfl)

/-- The entry keeps the issued token as a hash, and parses to its expiry. -/
structure SharedServiceToken.Keeps (env : RelayEnv Document) (salt : Text)
    (token : SharedServiceToken) (issue : TokenIssue) : Prop where
  id_eq : token.id = issue.response.id
  name_eq : token.name = issue.name
  token_eq : token.token = []
  tokenHash_eq : token.tokenHash = env.hashToken issue.response.token salt
  expiry_eq : token.expiresAt.bind env.parseRfc3339 = issue.expiry
  enabled_eq : token.enabled = true

/-- An entry matches its token until it expires. -/
theorem SharedServiceToken.Keeps.matches_iff {issue : TokenIssue} {now : UtcTime}
    (h : token.Keeps env salt issue) (hsalt : salt ∈ secrets.salts)
    (hissue : issue.response.token ∈ secrets.tokens) (hvalue : value ∈ secrets.tokens) :
    sharedTokenMatches env now token value salt = true ↔
      issue.response.token = value ∧ issue.UnexpiredAt now := by
  have hhash : (token.tokenHash == env.hashToken value salt) = true ↔
      issue.response.token = value := by
    rw [beq_iff_eq, h.tokenHash_eq]
    exact ⟨secrets.hashToken_inj hissue hvalue hsalt, fun heq => heq ▸ rfl⟩
  have hne : token.tokenHash.isEmpty = false := by
    rw [isEmpty_eq_false_iff, h.tokenHash_eq]
    exact secrets.hashToken_ne_nil _ _
  have hsalted : salt.isEmpty = false := isEmpty_eq_false_iff.mpr (secrets.salt_ne_nil hsalt)
  unfold sharedTokenMatches TokenIssue.UnexpiredAt
  rw [h.expiry_eq, h.enabled_eq, h.token_eq, hne, hsalted]
  cases issue.expiry with
  | none => simpa using hhash
  | some expiry =>
    by_cases hexpired : expiry ≤ now
    · have hpast : ¬ now < expiry := Rat.not_lt.mpr hexpired
      simp [hexpired, hpast]
    · have hahead : now < expiry := Rat.not_le.mp hexpired
      simpa [hexpired, hahead] using hhash

/-- The section has an entry for each outstanding token and no others. -/
structure SharedServiceConfig.Records (log : List TokenEvent) (shared : SharedServiceConfig) :
    Prop where
  authTokens : shared.authTokens = []
  salted : shared.serverSalt ∈ secrets.salts ∨ shared.serverSalt = [] ∧ shared.tokens = []
  drawn : ∀ issue, .issued issue ∈ log → issue.response.token ∈ secrets.tokens
  stored : ∀ token ∈ shared.tokens, ∃ issue,
    issue.Outstanding log ∧ token.Keeps env shared.serverSalt issue
  kept : ∀ issue, issue.Outstanding log → ∃ token ∈ shared.tokens,
    token.Keeps env shared.serverSalt issue
  distinct : shared.tokens.Pairwise (fun a b => a.tokenHash ≠ b.tokenHash)

namespace SharedServiceConfig.Records

variable {secrets} {log : List TokenEvent} {shared : SharedServiceConfig}

theorem of_empty (htokens : shared.tokens = []) (hauth : shared.authTokens = [])
    (hsalt : shared.serverSalt = []) : shared.Records secrets [] where
  authTokens := hauth
  salted := .inr ⟨hsalt, htokens⟩
  drawn _ h := absurd h not_mem_nil
  stored _ h := absurd h (htokens ▸ not_mem_nil)
  kept _ h := absurd h not_outstanding_nil
  distinct := htokens ▸ List.Pairwise.nil

section

variable (h : shared.Records secrets log)

include h

/-- A deletion drops the entries it names, and these are the tokens it ends. -/
theorem delete (id : Text) :
    SharedServiceConfig.Records secrets (log ++ [.deleted id]) { shared with
      tokens := shared.tokens.filter (fun token => !(token.id == id) && !(token.name == id)) } where
  authTokens := h.authTokens
  salted := h.salted.imp_right (fun ⟨hsalt, htokens⟩ => ⟨hsalt, by rw [htokens]; rfl⟩)
  drawn issue hissue := h.drawn issue (by simpa using hissue)
  stored token htoken := by
    obtain ⟨hmem, hkeep⟩ := mem_filter.mp htoken
    obtain ⟨issue, houtstanding, hkeeps⟩ := h.stored token hmem
    simp only [hkeeps.id_eq, hkeeps.name_eq, Bool.and_eq_true, Bool.not_eq_true', beq_eq_false_iff_ne]
      at hkeep
    exact ⟨issue, outstanding_deleted.mpr ⟨houtstanding, hkeep.1.symm, hkeep.2.symm⟩, hkeeps⟩
  kept issue hissue := by
    obtain ⟨houtstanding, hid, hname⟩ := outstanding_deleted.mp hissue
    obtain ⟨token, hmem, hkeeps⟩ := h.kept issue houtstanding
    refine ⟨token, mem_filter.mpr ⟨hmem, ?_⟩, hkeeps⟩
    simp [hkeeps.id_eq, hkeeps.name_eq, hid.symm, hname.symm]
  distinct := h.distinct.filter _

/-- A new entry, under the salt that is there or, before the first entry, under a
new one. -/
theorem issue {issue : TokenIssue} (hsalt : salt ∈ secrets.salts)
    (hsame : shared.serverSalt = salt ∨ shared.tokens = []) (hkeeps : token.Keeps env salt issue)
    (hdrawn : issue.response.token ∈ secrets.tokens)
    (hfresh : ∀ other, .issued other ∈ log → other.response.token ≠ issue.response.token) :
    SharedServiceConfig.Records secrets (log ++ [.issued issue])
      { shared with serverSalt := salt, tokens := shared.tokens ++ [token] } := by
  have hsalted : ∀ old ∈ shared.tokens, ∀ {other}, old.Keeps env shared.serverSalt other →
      old.Keeps env salt other := by
    intro old hold other hold_keeps
    rcases hsame with rfl | hnone
    · exact hold_keeps
    · exact absurd hold (hnone ▸ not_mem_nil)
  refine ⟨h.authTokens, .inl hsalt, fun other hother => ?_, fun old hold => ?_,
    fun other hother => ?_, ?_⟩
  · rcases mem_append.mp hother with hother | hother
    · exact h.drawn other hother
    · cases mem_singleton.mp hother
      exact hdrawn
  · rcases mem_append.mp hold with hold | hold
    · obtain ⟨other, hother, hold_keeps⟩ := h.stored old hold
      exact ⟨other, outstanding_issued.mpr (.inr hother), hsalted old hold hold_keeps⟩
    · cases mem_singleton.mp hold
      exact ⟨issue, outstanding_issued.mpr (.inl rfl), hkeeps⟩
  · rcases outstanding_issued.mp hother with rfl | hother
    · exact ⟨token, mem_append_right _ (mem_singleton_self _), hkeeps⟩
    · obtain ⟨old, hold, hold_keeps⟩ := h.kept other hother
      exact ⟨old, mem_append_left _ hold, hsalted old hold hold_keeps⟩
  · refine pairwise_append.mpr ⟨h.distinct, pairwise_singleton _ _, ?_⟩
    intro old hold last hlast hsame_hash
    cases mem_singleton.mp hlast
    obtain ⟨other, hother, hold_keeps⟩ := h.stored old hold
    rw [(hsalted old hold hold_keeps).tokenHash_eq, hkeeps.tokenHash_eq] at hsame_hash
    exact hfresh other hother.mem
      (secrets.hashToken_inj (h.drawn other hother.mem) hdrawn hsalt hsame_hash)

/-- What the relay accepts. -/
theorem valid_iff (hvalue : value ∈ secrets.tokens) (now : UtcTime) :
    sharedTokenIsValid env now shared value = true ↔
      ∃ issue : TokenIssue, issue.response.token = value ∧ issue.Outstanding log ∧
        issue.UnexpiredAt now := by
  unfold sharedTokenIsValid
  rw [h.authTokens, any_nil, Bool.or_false, List.any_eq_true]
  have hmatches : ∀ token ∈ shared.tokens, ∀ issue : TokenIssue, issue.Outstanding log →
      token.Keeps env shared.serverSalt issue →
      (sharedTokenMatches env now token value shared.serverSalt = true ↔
        issue.response.token = value ∧ issue.UnexpiredAt now) := by
    intro token htoken issue hissue hkeeps
    rcases h.salted with hsalt | ⟨_, hnone⟩
    · exact hkeeps.matches_iff secrets hsalt (h.drawn issue hissue.mem) hvalue
    · exact absurd htoken (hnone ▸ not_mem_nil)
  constructor
  · intro ⟨token, htoken, hmatch⟩
    obtain ⟨issue, hissue, hkeeps⟩ := h.stored token htoken
    obtain ⟨hsame, hunexpired⟩ := (hmatches token htoken issue hissue hkeeps).mp hmatch
    exact ⟨issue, hsame, hissue, hunexpired⟩
  · intro ⟨issue, hsame, hissue, hunexpired⟩
    obtain ⟨token, htoken, hkeeps⟩ := h.kept issue hissue
    exact ⟨token, htoken, (hmatches token htoken issue hissue hkeeps).mpr ⟨hsame, hunexpired⟩⟩

/-- No two entries match one token. -/
theorem countP_matches_le_one (value : Text) (now : UtcTime) :
    shared.tokens.countP (sharedTokenMatches env now · value shared.serverSalt) ≤ 1 := by
  have hhash : ∀ token ∈ shared.tokens,
      sharedTokenMatches env now token value shared.serverSalt = true →
        token.tokenHash = env.hashToken value shared.serverSalt := by
    intro token htoken hmatches
    obtain ⟨issue, _, hkeeps⟩ := h.stored token htoken
    simp only [sharedTokenMatches, hkeeps.token_eq] at hmatches
    simp_all
  rw [countP_eq_length_filter]
  have hdistinct := h.distinct.filter (sharedTokenMatches env now · value shared.serverSalt)
  match hmatching : shared.tokens.filter (sharedTokenMatches env now · value shared.serverSalt) with
  | [] => exact Nat.zero_le 1
  | [_] => exact Nat.le_refl 1
  | first :: second :: rest =>
    have hmem : ∀ token ∈ first :: second :: rest,
        token.tokenHash = env.hashToken value shared.serverSalt := by
      intro token htoken
      rw [← hmatching] at htoken
      obtain ⟨hmem, hmatches⟩ := mem_filter.mp htoken
      exact hhash token hmem hmatches
    rw [hmatching] at hdistinct
    have hne := rel_of_pairwise_cons hdistinct mem_cons_self
    exact absurd ((hmem first mem_cons_self).trans
      (hmem second (mem_cons_of_mem _ mem_cons_self)).symm) hne

end

end SharedServiceConfig.Records

/-! ## Every run -/

/-- What is assumed of the generator and the clock: a raw token is not drawn twice,
and the text of an expiry parses to the time it was made from. -/
def TokenRequest.Faithful (s : TokenRun Document) : TokenRequest → Prop
  | .issue payload draw clock =>
    draw.rawToken ∈ secrets.tokens ∧ draw.salt ∈ secrets.salts ∧
    (∀ issue, .issued issue ∈ s.log → issue.response.token ≠ draw.rawToken) ∧
    ∀ seconds, payload.expiresIn = some seconds →
      env.parseRfc3339 (draw.later seconds) = some (clock + seconds)
  | .delete _ => True

variable {secrets} {debug : Text → String} {config : ProxyConfig}

/-- What a request makes of the section. -/
theorem TokenRequest.perform_records {changed : Option ProxyConfig}
    (h : config.relayService.Records secrets s.log) (hfaithful : request.Faithful secrets s)
    (hperform : request.perform env debug config = .ok (changed, event)) :
    (changed.getD config).listeners = config.listeners ∧
      (changed.getD config).relayService.Records secrets (s.log ++ [event]) := by
  cases request with
  | issue payload draw clock =>
    obtain ⟨hdrawn, hsalt, hfresh, hexpiry⟩ := hfaithful
    obtain ⟨⟨edited, response⟩, hissue, heq⟩ := Wire.bind_eq_ok.mp hperform
    cases heq
    unfold issueTokenInner at hissue
    obtain ⟨_, _, hissue⟩ := Wire.bind_eq_ok.mp hissue
    obtain ⟨_, _, hissue⟩ := Wire.bind_eq_ok.mp hissue
    obtain ⟨_, _, hissue⟩ := Wire.bind_eq_ok.mp hissue
    obtain ⟨_, _, hissue⟩ := Wire.bind_eq_ok.mp hissue
    cases hissue
    refine ⟨rfl, ?_⟩
    have hchosen : (if (trim config.relayService.serverSalt).isEmpty then draw.salt
        else config.relayService.serverSalt) ∈ secrets.salts ∧
        (config.relayService.serverSalt = (if (trim config.relayService.serverSalt).isEmpty
          then draw.salt else config.relayService.serverSalt) ∨
          config.relayService.tokens = []) := by
      rcases h.salted with hin | ⟨hempty, hnone⟩
      · have hblank : (trim config.relayService.serverSalt).isEmpty = false :=
          isEmpty_eq_false_iff.mpr (secrets.salt_nonblank _ hin)
        rw [hblank]
        exact ⟨hin, .inl rfl⟩
      · rw [hempty]
        exact ⟨hsalt, .inr hnone⟩
    refine h.issue hchosen.1 hchosen.2 ⟨rfl, rfl, rfl, rfl, ?_, rfl⟩ hdrawn hfresh
    cases hseconds : payload.expiresIn with
    | none => rfl
    | some seconds => exact hexpiry seconds hseconds
  | delete id =>
    cases hperform
    have hdelete := h.delete id
    unfold ProxyConfig.relayService at hdelete ⊢
    unfold deleteToken
    cases hshared : config.sharedService <;> rw [hshared] at hdelete
    · exact ⟨rfl, by rwa [Option.map_none, Option.getD_none, hshared]⟩
    · exact ⟨rfl, hdelete⟩

/-- The file loads, and its section has the outstanding tokens. -/
def TokenRun.Recorded (secrets : RelaySecrets env) (s : TokenRun Document) : Prop :=
  ∃ config, ProxyConfig.load env.yaml env.url s.document = .ok config ∧
    config.relayService.Records secrets s.log

/-- A successful request keeps the records. -/
theorem TokenRun.Recorded.step (h : s.Recorded secrets) (hfaithful : request.Faithful secrets s)
    (hstep : s.step env debug request = some t) : t.Recorded secrets := by
  obtain ⟨config, changed, event, hload, hperform, rfl⟩ := TokenRun.step_eq_some hstep
  obtain ⟨config', hload', hrecords⟩ := h
  rw [hload] at hload'
  cases hload'
  obtain ⟨hlisteners, hrecords'⟩ := request.perform_records hrecords hfaithful hperform
  cases changed with
  | none => exact ⟨config, hload, hrecords'⟩
  | some changed =>
    obtain ⟨saved, hsaved, heq⟩ := load_save_changed env.yaml env.url hload hlisteners
    refine ⟨saved, hsaved, ?_⟩
    rw [heq]
    exact hrecords'

/-- **What an issued token is worth.**  Start without tokens and without a salt, and
let any requests to issue and to delete tokens succeed, one after the other.  Then the
file loads; the relay accepts a raw token at some time exactly if it was answered to a
request, no later deletion named its id or its name, and it does not expire by then;
and at most one entry of the file matches it. -/
theorem issued_tokens_accepted {file₀ : Document} {config₀ : ProxyConfig}
    (hload : ProxyConfig.load env.yaml env.url file₀ = .ok config₀)
    (htokens : config₀.relayService.tokens = []) (hauth : config₀.relayService.authTokens = [])
    (hsalt : config₀.relayService.serverSalt = []) {s : TokenRun Document}
    (hreach : Runs.Reaches (TokenRun.step env debug)
      (fun s request => request.Faithful secrets s) ⟨file₀, []⟩ s) :
    ∃ config, ProxyConfig.load env.yaml env.url s.document = .ok config ∧
      ∀ value ∈ secrets.tokens, ∀ now : UtcTime,
        (sharedTokenIsValid env now config.relayService value = true ↔
          ∃ issue : TokenIssue, issue.response.token = value ∧ issue.Outstanding s.log ∧
            issue.UnexpiredAt now) ∧
        config.relayService.tokens.countP
          (sharedTokenMatches env now · value config.relayService.serverSalt) ≤ 1 := by
  have hrecorded : s.Recorded secrets :=
    hreach.invariant ⟨config₀, hload, .of_empty htokens hauth hsalt⟩
      (fun _ _ _ h hfaithful hstep => h.step hfaithful hstep)
  obtain ⟨config, hloaded, hrecords⟩ := hrecorded
  exact ⟨config, hloaded, fun value hvalue now =>
    ⟨hrecords.valid_iff hvalue now, hrecords.countP_matches_le_one value now⟩⟩

end Stored

/-! ### Two tokens, and one of them deleted -/

/-- A relay on files that are the configurations themselves, with a clock that
knows one day. -/
def oneDayEnv : RelayEnv ProxyConfig where
  yaml := plainYaml
  url := oneUrl
  defaultConfigText := { listeners := [] }
  hashToken := firstBytes.hashToken
  parseRfc3339 text := if text = "2026-01-02T00:00:00+00:00".toList then some 86400 else none

/-- The tokens of two draws. -/
def twoSecrets : RelaySecrets oneDayEnv where
  toSha256 := firstBytes
  hashToken_eq := rfl
  tokens := {(drawOf "1").rawToken, (drawOf "2").rawToken}
  salts := {"salt".toList}
  salt_nonblank := by
    intro salt hsalt
    rw [Set.mem_singleton_iff.mp hsalt]
    decide
  digest_injOn := by
    intro left hleft right hright hdigest
    obtain ⟨token, htoken, salt, hsalt, rfl⟩ := hleft
    obtain ⟨token', htoken', salt', hsalt', rfl⟩ := hright
    rw [Set.mem_singleton_iff.mp hsalt, Set.mem_singleton_iff.mp hsalt'] at hdigest ⊢
    rcases htoken with rfl | rfl <;> rcases htoken' with rfl | rfl
    · rfl
    · exact absurd hdigest (by decide +kernel)
    · exact absurd hdigest (by decide +kernel)
    · rfl

/-- A token without expiry, one for a day, and the first deleted by its name. -/
def issueAndDelete : List TokenRequest :=
  [.issue { name := "alpha".toList } (drawOf "1") 0,
    .issue { name := "beta".toList, expiresIn := some 86400 } (drawOf "2") 0,
    .delete "alpha".toList]

/-- Two tokens are issued, and one of them is deleted. -/
theorem issued_tokens_accepted_two :
    ∃ s, Runs.run (TokenRun.step oneDayEnv quoted) ⟨{ listeners := [] }, []⟩ issueAndDelete =
        some s ∧
      ∃ config, ProxyConfig.load plainYaml oneUrl s.document = .ok config ∧
        ∀ value ∈ twoSecrets.tokens, ∀ now : UtcTime,
          (sharedTokenIsValid oneDayEnv now config.relayService value = true ↔
            ∃ issue : TokenIssue, issue.response.token = value ∧ issue.Outstanding s.log ∧
              issue.UnexpiredAt now) ∧
          config.relayService.tokens.countP
            (sharedTokenMatches oneDayEnv now · value config.relayService.serverSalt) ≤ 1 := by
  have hguarded : Runs.Guarded (TokenRun.step oneDayEnv quoted)
      (fun s request => request.Faithful twoSecrets s) ⟨{ listeners := [] }, []⟩ issueAndDelete := by
    refine ⟨⟨.inl rfl, rfl, fun _ h => absurd h not_mem_nil, fun _ h => nomatch h⟩,
      ⟨.inr rfl, rfl, fun issue hissue => ?_, fun seconds hseconds => ?_⟩, trivial, trivial⟩
    · cases mem_singleton.mp hissue
      decide
    · cases hseconds
      decide +kernel
  exact ⟨_, rfl, issued_tokens_accepted rfl rfl rfl rfl (Runs.reaches_of_guarded hguarded rfl)⟩

end FerrumProxy
