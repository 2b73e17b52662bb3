import FerrumProxy.ConfigRoundTrip
import FerrumProxy.ManagerIpBlock
import FerrumProxy.ReadModifyWrite

/-!
# Concurrent updates of the configuration file

The manager API issues and deletes tokens and changes the IP block list by loading the configuration
file, editing the loaded copy and saving it, with no lock around the three.  Each request is a
reaction to the file it reads, so the handlers are an instance of `ReadModifyWrite`.
-/

namespace FerrumProxy

open Str Updates

/-- The body of a request for a token. -/
structure IssueTokenRequest where
  name : Text
  scopes : List Text := []
  expiresIn : Option Int := none
  issuerId : Option Text := none
  priority : Option UInt16 := none
  fixedPort : Option UInt16 := none
  limits : Option SharedServiceLimits := none

/-- The answer with the token itself. -/
structure IssueTokenResponse where
  id : Text
  token : Text
  expiresAt : Option Text

/-- What the generator and the clock give while a token is issued. -/
structure TokenDraw where
  salt : Text
  rawToken : Text
  id : Text
  now : Text
  /-- The time so many seconds from now. -/
  later : Int → Text

def defaultSharedService : SharedServiceConfig :=
  { enabled := false
    controlBind := "0.0.0.0:7000".toList
    publicBind := "0.0.0.0".toList
    publicHost := []
    portRange := { start := 40000, finish := 49999 }
    serverSalt := []
    authTokens := []
    allowAnonymous := true
    queue := { enabled := true, maxSize := 128 }
    tokens := []
    defaults := {}
    maximums := {} }

/-- Go on, or answer with a refusal. -/
def require (condition : Bool) (response : ManagerResponse) : Except ManagerResponse Unit :=
  if condition then .ok () else .error response

def checkFixedPort (shared : SharedServiceConfig) (fixedPort : Option UInt16) :
    Except ManagerResponse Unit :=
  match fixedPort with
  | none => .ok ()
  | some port => do
      require (!(decide (port < shared.portRange.start) || decide (shared.portRange.finish < port)))
        ⟨.badRequest, some ("fixedPort must be inside sharedService.portRange (" ++
          toString shared.portRange.start ++ "-" ++ toString shared.portRange.finish ++ ")")⟩
      require (!shared.tokens.any (fun token => token.fixedPort == some port))
        ⟨.conflict, some ("fixedPort " ++ toString port ++ " is already assigned")⟩

section Requests

variable (hashToken : Text → Text → Text) (debug : Text → String)

/-- `issue_token_inner` on the loaded configuration. -/
def issueTokenInner (payload : IssueTokenRequest) (draw : TokenDraw) (config : ProxyConfig) :
    Except ManagerResponse (ProxyConfig × IssueTokenResponse) := do
  let shared := config.sharedService.getD defaultSharedService
  let name := trim payload.name
  require (!(name.isEmpty || decide (80 < byteLen name)))
    ⟨.badRequest, some "name must be 1-80 characters"⟩
  require (!shared.tokens.any (fun token => token.name == name))
    ⟨.conflict, some ("token name " ++ debug name ++ " already exists")⟩
  checkFixedPort shared payload.fixedPort
  require (payload.expiresIn.all (fun seconds => decide (0 < seconds)))
    ⟨.badRequest, some "expiresIn must be positive"⟩
  let serverSalt := if (trim shared.serverSalt).isEmpty then draw.salt else shared.serverSalt
  let token : SharedServiceToken :=
    { id := draw.id
      name := name
      token := []
      tokenHash := hashToken draw.rawToken serverSalt
      scopes := if payload.scopes.isEmpty then ["proxy:write".toList] else payload.scopes
      expiresAt := payload.expiresIn.map draw.later
      createdAt := some draw.now
      lastUsedAt := none
      issuerId := payload.issuerId
      enabled := true
      fixedPort := payload.fixedPort
      priority := payload.priority.getD 0
      limits := payload.limits.getD {} }
  let shared := { shared with serverSalt := serverSalt, tokens := shared.tokens ++ [token] }
  return ({ config with sharedService := some shared },
    ⟨draw.id, draw.rawToken, payload.expiresIn.map draw.later⟩)

/-- `delete_token` on the loaded configuration; without a shared service there is
nothing to save. -/
def deleteToken (id : Text) (config : ProxyConfig) : Option ProxyConfig :=
  config.sharedService.map (fun shared =>
    { config with sharedService := some { shared with
        tokens := shared.tokens.filter (fun token => !(token.id == id) && !(token.name == id)) } })

/-- The requests that modify the configuration file. -/
inductive ConfigRequest where
  | issue (payload : IssueTokenRequest) (draw : TokenDraw)
  | delete (id : Text)
  | ipBlock (request : IpBlockRequest)

variable {Document : Type} (yaml : SerdeYaml Document) (url : UrlParser)

/-- Load, edit, and save if there is something to save. -/
def reactWith (edit : ProxyConfig → Except ManagerResponse (Option ProxyConfig))
    (status : StatusCode) (file : Document) : Reaction Document ManagerResponse :=
  match ProxyConfig.load yaml url file with
  | .error message => .answer ⟨.internalServerError, some message⟩
  | .ok config =>
    match edit config with
    | .error response => .answer response
    | .ok none => .answer ⟨status, none⟩
    | .ok (some changed) => .write (changed.save yaml) ⟨status, none⟩

variable (addresses : AddressSyntax)

def ConfigRequest.react (request : ConfigRequest) (file : Document) :
    Reaction Document ManagerResponse :=
  match request with
  | .issue payload draw =>
    reactWith yaml url (fun config =>
      (issueTokenInner hashToken debug payload draw config).map (fun r => some r.1)) .created file
  | .delete id =>
    reactWith yaml url (fun config => .ok (deleteToken id config)) .noContent file
  | .ipBlock request =>
    match request.plan addresses debug with
    | .error response => .answer response
    | .ok plan =>
      reactWith yaml url (fun config =>
        (plan.edit config.ipBlock).map (fun ipBlock => some { config with ipBlock := ipBlock }))
        .noContent file

end Requests

/-! ### Tokens -/

def ProxyConfig.tokens (config : ProxyConfig) : List SharedServiceToken :=
  (config.sharedService.getD defaultSharedService).tokens

/-- The tokens share neither name nor fixed port. -/
def SharedServiceToken.Distinct (a b : SharedServiceToken) : Prop :=
  a.name ≠ b.name ∧ ∀ port, a.fixedPort = some port → b.fixedPort ≠ some port

/-- The token is the one that a request asks for. -/
def SharedServiceToken.IssuedFor (token : SharedServiceToken) (payload : IssueTokenRequest) :
    Prop :=
  token.name = trim payload.name ∧ token.fixedPort = payload.fixedPort

variable {response : ManagerResponse} {request : ConfigRequest} {requests : List ConfigRequest}
  {before : List SharedServiceToken}

theorem require_eq_ok {condition : Bool} :
    require condition response = .ok () ↔ condition = true := by
  cases condition with
  | false => exact iff_of_false (fun h => by cases h) Bool.false_ne_true
  | true => exact iff_of_true rfl rfl

/-- A port that passes the check is not taken. -/
theorem checkFixedPort_eq_ok {shared : SharedServiceConfig} {fixedPort : Option UInt16}
    (h : checkFixedPort shared fixedPort = .ok ()) :
    ∀ token ∈ shared.tokens, ∀ port, token.fixedPort = some port → fixedPort ≠ some port := by
  intro token htoken port hport hfixed
  subst hfixed
  obtain ⟨_, _, hfree⟩ := Wire.bind_eq_ok.mp h
  have hnone := require_eq_ok.mp hfree
  rw [Bool.not_eq_true', List.any_eq_false] at hnone
  exact hnone token htoken (beq_iff_eq.mpr hport)

open List

section Updates

variable {hashToken : Text → Text → Text} {debug : Text → String} {addresses : AddressSyntax}
  {Document : Type} {yaml : SerdeYaml Document} {url : UrlParser} {file written : Document}

/-- A token that is issued is new. -/
theorem issueTokenInner_eq_ok {payload : IssueTokenRequest} {draw : TokenDraw}
    {config changed : ProxyConfig} {response : IssueTokenResponse}
    (h : issueTokenInner hashToken debug payload draw config = .ok (changed, response)) :
    changed.listeners = config.listeners ∧ ∃ token : SharedServiceToken,
      token.IssuedFor payload ∧ changed.tokens = config.tokens ++ [token] ∧
        ∀ other ∈ config.tokens, other.Distinct token := by
  unfold issueTokenInner at h
  obtain ⟨_, _, h⟩ := Wire.bind_eq_ok.mp h
  obtain ⟨_, hname, h⟩ := Wire.bind_eq_ok.mp h
  obtain ⟨_, hport, h⟩ := Wire.bind_eq_ok.mp h
  obtain ⟨_, _, h⟩ := Wire.bind_eq_ok.mp h
  cases h
  refine ⟨rfl, _, ⟨rfl, rfl⟩, rfl, fun other hother => ⟨fun hsame => ?_, ?_⟩⟩
  · have hnone := require_eq_ok.mp hname
    rw [Bool.not_eq_true', List.any_eq_false] at hnone
    exact hnone other hother (beq_iff_eq.mpr hsame)
  · exact checkFixedPort_eq_ok hport other hother

/-- What a request that saves does to the tokens. -/
def ConfigRequest.ChangesTokens (request : ConfigRequest)
    (before after : List SharedServiceToken) : Prop :=
  match request with
  | .issue payload _ => ∃ token : SharedServiceToken, token.IssuedFor payload ∧
      after = before ++ [token] ∧ ∀ other ∈ before, other.Distinct token
  | .delete _ => ∃ keep : SharedServiceToken → Bool, after = before.filter keep
  | .ipBlock _ => after = before

/-- What is saved is an edit of what was loaded. -/
theorem reactWith_write {edit : ProxyConfig → Except ManagerResponse (Option ProxyConfig)}
    {status : StatusCode} (h : reactWith yaml url edit status file = .write written response) :
    ∃ config changed, ProxyConfig.load yaml url file = .ok config ∧
      edit config = .ok (some changed) ∧ written = changed.save yaml := by
  unfold reactWith at h
  (repeat' split at h) <;> cases h
  next hload _ _ hedit => exact ⟨_, _, hload, hedit, rfl⟩

theorem map_eq_ok {ε α β : Type} {x : Except ε α} {f : α → β} {b : β} (h : x.map f = .ok b) :
    ∃ a, x = .ok a ∧ f a = b := by
  cases x with
  | error e => cases h
  | ok a => exact ⟨a, rfl, Except.ok.inj h⟩

/-- A request that saves changes the tokens as it should. -/
theorem react_write
    (h : request.react hashToken debug yaml url addresses file = .write written response) :
    ∃ config changed : ProxyConfig, ProxyConfig.load yaml url file = .ok config ∧
      written = changed.save yaml ∧ changed.listeners = config.listeners ∧
      request.ChangesTokens config.tokens changed.tokens := by
  cases request with
  | issue payload draw =>
    obtain ⟨config, changed, hload, hedit, hwritten⟩ := reactWith_write h
    obtain ⟨⟨edited, issued⟩, hissue, heq⟩ := map_eq_ok hedit
    cases heq
    obtain ⟨hlisteners, htokens⟩ := issueTokenInner_eq_ok hissue
    exact ⟨config, edited, hload, hwritten, hlisteners, htokens⟩
  | delete id =>
    obtain ⟨config, changed, hload, hedit, hwritten⟩ := reactWith_write h
    obtain ⟨shared, hshared, rfl⟩ := Option.map_eq_some_iff.mp (Except.ok.inj hedit)
    refine ⟨config, _, hload, hwritten, rfl,
      fun token => !(token.id == id) && !(token.name == id), ?_⟩
    unfold ProxyConfig.tokens
    rw [hshared]
    rfl
  | ipBlock request =>
    dsimp only [ConfigRequest.react] at h
    split at h
    · cases h
    · obtain ⟨config, changed, hload, hedit, hwritten⟩ := reactWith_write h
      obtain ⟨ipBlock, _, heq⟩ := map_eq_ok hedit
      cases heq
      exact ⟨config, _, hload, hwritten, rfl, rfl⟩

/-- Tokens of before, and after them issued ones that are distinct from each other
and from those of before. -/
def TokensFrom (requests : List ConfigRequest) (before tokens : List SharedServiceToken) : Prop :=
  ∃ old issued, tokens = old ++ issued ∧ old.Sublist before ∧
    issued.Pairwise SharedServiceToken.Distinct ∧
    (∀ a ∈ old, ∀ b ∈ issued, a.Distinct b) ∧
    ∀ token ∈ issued, ∃ payload draw,
      ConfigRequest.issue payload draw ∈ requests ∧ token.IssuedFor payload

theorem tokensFrom_self (requests : List ConfigRequest) (before : List SharedServiceToken) :
    TokensFrom requests before before := by
  refine ⟨before, [], (append_nil before).symm, Sublist.refl before, List.Pairwise.nil,
    fun a _ b hb => ?_, fun b hb => ?_⟩ <;> cases hb

/-- Every change keeps the issued tokens distinct. -/
theorem TokensFrom.change {tokens tokens' : List SharedServiceToken}
    (hrequest : request ∈ requests) (hchange : request.ChangesTokens tokens tokens')
    (h : TokensFrom requests before tokens) : TokensFrom requests before tokens' := by
  obtain ⟨old, issued, rfl, hold, hissued, hdistinct, hasked⟩ := h
  cases request with
  | issue payload draw =>
    obtain ⟨token, hfor, rfl, hnew⟩ := hchange
    refine ⟨old, issued ++ [token], append_assoc _ _ _, hold, ?_, ?_, ?_⟩
    · refine pairwise_append.mpr ⟨hissued, pairwise_singleton _ _, fun other hother => ?_⟩
      exact forall_mem_singleton.mpr (hnew other (mem_append_right _ hother))
    · intro a ha
      exact forall_mem_append.mpr
        ⟨hdistinct a ha, forall_mem_singleton.mpr (hnew a (mem_append_left _ ha))⟩
    · exact forall_mem_append.mpr
        ⟨hasked, forall_mem_singleton.mpr ⟨payload, draw, hrequest, hfor⟩⟩
  | delete id =>
    obtain ⟨keep, rfl⟩ := hchange
    refine ⟨old.filter keep, issued.filter keep, filter_append _ _,
      filter_sublist.trans hold, hissued.filter keep, ?_, ?_⟩
    · intro a ha b hb
      exact hdistinct a (mem_of_mem_filter ha) b (mem_of_mem_filter hb)
    · intro b hb
      exact hasked b (mem_of_mem_filter hb)
  | ipBlock request =>
    cases hchange
    exact ⟨old, issued, rfl, hold, hissued, hdistinct, hasked⟩

/-- The file loads, and its tokens are old ones and distinct issued ones. -/
def FileTokens (yaml : SerdeYaml Document) (url : UrlParser) (requests : List ConfigRequest)
    (before : List SharedServiceToken) (file : Document) : Prop :=
  ∃ config, ProxyConfig.load yaml url file = .ok config ∧ TokensFrom requests before config.tokens

/-- Serving a request keeps the file's tokens. -/
theorem fileTokens_serve (hrequest : request ∈ requests)
    (h : FileTokens yaml url requests before file) :
    FileTokens yaml url requests before
      (serve (ConfigRequest.react hashToken debug yaml url addresses) request file).2 := by
  unfold serve
  cases hreact : request.react hashToken debug yaml url addresses file with
  | answer response => exact h
  | write written response =>
    obtain ⟨config, hload, htokens⟩ := h
    obtain ⟨config', changed, hload', rfl, hlisteners, hchange⟩ := react_write hreact
    rw [hload] at hload'
    cases hload'
    obtain ⟨saved, hsaved, heq⟩ := load_save_changed yaml url hload hlisteners
    refine ⟨saved, hsaved, ?_⟩
    have hsame : saved.tokens = changed.tokens := by
      rw [heq]
      rfl
    rw [hsame]
    exact htokens.change hrequest hchange

/-- **Updates without interference.**  If every request saves while the file is
the one it has loaded, and all requests succeed, then some order of the requests,
served one after the other, succeeds and leaves the same file; and no two of the
tokens they issued share a name or a fixed port. -/
theorem updates_serializable {file₀ : Document} {config₀ : ProxyConfig}
    (hload : ProxyConfig.load yaml url file₀ = .ok config₀) (requests : List ConfigRequest)
    {s : Shared Document ManagerResponse}
    (hreach : Runs.Reaches
      (step (ConfigRequest.react hashToken debug yaml url addresses) requests)
      Undisturbed (start file₀) s)
    (hdone : ∀ i < requests.length, ∃ response,
      s.phases i = .answered response ∧ response.isError = false) :
    (∃ order : List ConfigRequest, order.Perm requests ∧
      (serveAll (ConfigRequest.react hashToken debug yaml url addresses) order
        file₀).2 = s.document ∧
      ∀ response ∈ (serveAll (ConfigRequest.react hashToken debug yaml url addresses)
        order file₀).1, response.isError = false) ∧
    ∃ config, ProxyConfig.load yaml url s.document = .ok config ∧
      TokensFrom requests config₀.tokens config.tokens := by
  obtain ⟨order, hperm, hdocument, hanswers⟩ := serializable hreach
    (fun i hi => (hdone i hi).imp (fun _ h => h.1))
  refine ⟨⟨order, hperm, hdocument, fun response hresponse => ?_⟩, ?_⟩
  · obtain ⟨i, hi, hanswered⟩ := hanswers response hresponse
    obtain ⟨given, hgiven, hsuccess⟩ := hdone i hi
    rw [hanswered] at hgiven
    cases hgiven
    exact hsuccess
  · rw [← hdocument]
    have hstart : FileTokens yaml url requests config₀.tokens file₀ :=
      ⟨config₀, hload, tokensFrom_self requests config₀.tokens⟩
    exact serveAll_invariant
      (fun request hrequest _ h => fileTokens_serve (hperm.mem_iff.mp hrequest) h) hstart

end Updates

/-! ### Two tokens -/

/-- A generator and a clock. -/
def drawOf (seed : String) : TokenDraw where
  salt := "salt".toList
  rawToken := "fp_".toList ++ seed.toList
  id := "tok_".toList ++ seed.toList
  now := "2026-01-01T00:00:00+00:00".toList
  later _ := "2026-01-02T00:00:00+00:00".toList

/-- Two clients each ask for a token of their own. -/
def twoTokens : List ConfigRequest :=
  [.issue { name := "alpha".toList } (drawOf "1"), .issue { name := "beta".toList } (drawOf "2")]

/-- The requests on files that are the configurations themselves; the hash keeps
both texts. -/
def plainReact : ConfigRequest → ProxyConfig → Reaction ProxyConfig ManagerResponse :=
  ConfigRequest.react (fun token salt => token ++ salt) quoted plainYaml oneUrl dottedSyntax

/-- One after the other. -/
theorem updates_serializable_two :
    ∃ s, Runs.run (step plainReact twoTokens) (start blockingConfig)
        [.read 0, .write 0, .read 1, .write 1] = some s ∧
      (∃ order : List ConfigRequest, order.Perm twoTokens ∧
        (serveAll plainReact order blockingConfig).2 = s.document ∧
        ∀ response ∈ (serveAll plainReact order blockingConfig).1,
          response.isError = false) ∧
      ∃ config, ProxyConfig.load plainYaml oneUrl s.document = .ok config ∧
        TokensFrom twoTokens blockingConfig.tokens config.tokens := by
  have hguarded : Runs.Guarded (step plainReact twoTokens) Undisturbed
      (start blockingConfig) [.read 0, .write 0, .read 1, .write 1] := by
    refine ⟨trivial, fun _ _ _ h => ?_, trivial, fun _ _ _ h => ?_, trivial⟩ <;> cases h <;> rfl
  refine ⟨_, rfl, updates_serializable rfl twoTokens
    (Runs.reaches_of_guarded hguarded rfl) (fun i hi => ?_)⟩
  match i, hi with
  | 0, _ => exact ⟨_, rfl, rfl⟩
  | 1, _ => exact ⟨_, rfl, rfl⟩

/-- Both load the file before either saves: both tokens are issued, and the file
has only the second one. -/
theorem update_lost :
    ¬ ∀ (file₀ config₀ : ProxyConfig), ProxyConfig.load plainYaml oneUrl file₀ = .ok config₀ →
      ∀ (requests : List ConfigRequest) (s : Shared ProxyConfig ManagerResponse),
        Runs.Reaches (step plainReact requests) Runs.Always (start file₀) s →
        (∀ i < requests.length, ∃ response,
          s.phases i = .answered response ∧ response.isError = false) →
        (∃ order : List ConfigRequest, order.Perm requests ∧
          (serveAll plainReact order file₀).2 = s.document ∧
          ∀ response ∈ (serveAll plainReact order file₀).1, response.isError = false) ∧
        ∃ config, ProxyConfig.load plainYaml oneUrl s.document = .ok config ∧
          TokensFrom requests config₀.tokens config.tokens := by
  intro hall
  have hreach := Runs.reaches_of_run (rfl : Runs.run (step plainReact twoTokens)
    (start blockingConfig) [.read 0, .read 1, .write 0, .write 1] = some _)
  obtain ⟨⟨order, hperm, hdocument, _⟩, _⟩ := hall blockingConfig blockingConfig rfl twoTokens _
    hreach (fun i hi => by
      match i, hi with
      | 0, _ => exact ⟨_, rfl, rfl⟩
      | 1, _ => exact ⟨_, rfl, rfl⟩)
  have hcount := congrArg (fun config => config.tokens.length) hdocument
  rcases perm_pair.mp hperm with rfl | rfl <;>
    · revert hcount
      decide +kernel

end FerrumProxy
