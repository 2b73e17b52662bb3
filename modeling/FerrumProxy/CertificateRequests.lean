import FerrumProxy.GuardedRuns
import FerrumProxy.ManagerIpBlock
import FerrumProxy.ManagerSecrets

/-!
# Requests for certificates

A request is authorised under its scope, then looks up the source by its id, and then reads the
files of that source.  The first two steps lock the store separately, so registrations, removals,
issues and revocations come between them in any order.
-/

namespace FerrumProxy

open Str Store

/-! ### One request -/

/-- What the store takes from elsewhere. -/
structure SecretsEnv (Document : Type) where
  json : SerdeJson Document
  security : TokenSecurity
  parseRfc3339 : Text → Option UtcTime
  managerToken : Text

/-- Under which token a request was authorised. -/
inductive Caller where
  | manager
  | delegated (token : Text)
  deriving DecidableEq

/-- The token of an `Authorization` header, which may be missing or not a text. -/
def bearerToken (header : Option (Option Text)) : Except ManagerResponse Text :=
  match header with
  | none => .error ⟨.unauthorized, some "Missing Authorization bearer token"⟩
  | some none => .error ⟨.unauthorized, some "Invalid Authorization header"⟩
  | some (some value) =>
    match value.dropPrefix? "Bearer ".toList with
    | none => .error ⟨.unauthorized, some "Authorization must use Bearer token"⟩
    | some token => .ok token

/-- A header whose token is one of those that occur. -/
structure Authorization (security : TokenSecurity) where
  header : Option (Option Text)
  token_mem : ∀ token, bearerToken header = .ok token → token ∈ security.tokens

/-- The answer to a request for a certificate. -/
inductive CertificateResponse where
  | bundle (bundle : CertificateBundle) (etag : Text)
  | notModified (etag : Text)
  | refused (response : ManagerResponse)

section Request

variable {Document : Type} (env : SecretsEnv Document)

def authorize (header : Option (Option Text)) : Except ManagerResponse Unit :=
  match bearerToken header with
  | .error response => .error response
  | .ok token =>
    if env.security.tokensEqual token env.managerToken then .ok ()
    else .error ⟨.forbidden, some "Invalid manager token"⟩

def authorizeScope (header : Option (Option Text)) (scope : Text) (disk : StoreDisk)
    (now : UtcTime) (file : Option Document) : Except ManagerResponse Caller :=
  match authorize env header with
  | .ok () => .ok .manager
  | .error response =>
    match bearerToken header with
    | .error _ => .error response
    | .ok token =>
      match permits env.json env.security env.parseRfc3339 disk now token scope file with
      | .ok true => .ok (.delegated token)
      | _ => .error response

/-- The lookup of `get_certificate`. -/
def findSource (disk : StoreDisk) (id : Text) (file : Option Document) :
    Except ManagerResponse CertificateSource :=
  match sources env.json disk file with
  | .error message => .error ⟨.internalServerError, some message⟩
  | .ok sources =>
    match sources.find? (fun source => source.id == id) with
    | none => .error ⟨.notFound, some "Certificate source not found"⟩
    | some source => .ok source

/-- The rest of `get_certificate`, which does not use the store. -/
def certificateResponse (files : CertificateFiles) (ifNoneMatch : Option Text)
    (source : CertificateSource) : CertificateResponse :=
  match readBundle env.security.toSha256 files source with
  | .error message => .refused ⟨.serviceUnavailable, some message⟩
  | .ok bundle =>
    let etag := '"' :: bundle.revision ++ ['"']
    if ifNoneMatch = some etag then .notModified etag else .bundle bundle etag

end Request

/-! ### Requests in flight -/

/-- What has succeeded so far. -/
inductive StoreEvent where
  /-- A token, its scopes, and the sources in place. -/
  | issued (token : Text) (scopes : List Text) (sources : List CertificateSource)
  | revoked (id : Text)
  | registered (source : CertificateSource)
  | removed (id : Text)
  /-- The bundle of a source, and how much had happened when the source was looked up. -/
  | returned (caller : Caller) (source : CertificateSource) (mark : Nat)
      (bundle : CertificateBundle)
  deriving DecidableEq

/-- A request between its steps, with how much had happened at the last one. -/
inductive CertificateTask where
  | authorised (id : Text) (caller : Caller) (mark : Nat)
  | found (caller : Caller) (source : CertificateSource) (mark : Nat)

/-- The store with the requests in flight, and a log that no code of the manager keeps. -/
structure CertificateApi (Document : Type) where
  file : Option Document
  requests : Runs.Pool CertificateTask
  log : List StoreEvent

/-- The steps of a request, and the operations that come between them. -/
inductive ApiAction (security : TokenSecurity) where
  | authorise (request : Nat) (id : Text) (authorization : Authorization security)
      (disk : StoreDisk) (now : UtcTime)
  | lookup (request : Nat) (disk : StoreDisk)
  | respond (request : Nat) (files : CertificateFiles) (ifNoneMatch : Option Text)
  | issue (name : Text) (scopes : List Text) (expiresIn : Option Int)
      (draw : CredentialDraw security) (disk : StoreDisk)
  | revoke (id : Text) (disk : StoreDisk)
  | register (source : CertificateSource) (files : CertificateFiles) (disk : StoreDisk)
  | removeSource (id : Text) (disk : StoreDisk)

namespace CertificateApi

variable {Document : Type}

/-- An empty store. -/
def start : CertificateApi Document := ⟨none, ∅, []⟩

/-- An operation of the store, with its event if it succeeds. -/
def record {α : Type} (s : CertificateApi Document)
    (outcome : Option Document × Except String α) (event : α → StoreEvent) :
    CertificateApi Document :=
  match outcome.2 with
  | .ok answer => { s with file := outcome.1, log := s.log ++ [event answer] }
  | .error _ => { s with file := outcome.1 }

variable (env : SecretsEnv Document)

def step (s : CertificateApi Document) : ApiAction env.security → Option (CertificateApi Document)
  | .authorise request id authorization disk now =>
    match s.requests.lookup request with
    | some _ => none
    | none =>
      match authorizeScope env authorization.header (certificateScope id) disk now s.file with
      | .error _ => some s
      | .ok caller =>
        some { s with
          requests := s.requests.put request (.authorised id caller s.log.length) }
  | .lookup request disk =>
    match s.requests.lookup request with
    | some (.authorised id caller _) =>
      match findSource env disk id s.file with
      | .error _ => some { s with requests := s.requests.drop request }
      | .ok source =>
        some { s with
          requests := s.requests.put request (.found caller source s.log.length) }
    | _ => none
  | .respond request files ifNoneMatch =>
    match s.requests.lookup request with
    | some (.found caller source mark) =>
      match certificateResponse env files ifNoneMatch source with
      | .bundle bundle _ =>
        some { s with
          requests := s.requests.drop request
          log := s.log ++ [.returned caller source mark bundle] }
      | _ => some { s with requests := s.requests.drop request }
    | _ => none
  | .issue name scopes expiresIn draw disk =>
    some (s.record (issue env.json name scopes expiresIn draw disk s.file)
      (fun answer =>
        .issued answer.token answer.scopes (stored env.json s.file).certificates))
  | .revoke id disk =>
    some (s.record (revoke env.json id disk s.file) (fun _ => .revoked id))
  | .register source files disk =>
    match source.prepare env.security.toSha256 files with
    | .error _ => some s
    | .ok (prepared, _) =>
      some (s.record (register env.json env.security files source disk s.file)
        (fun _ => .registered prepared))
  | .removeSource id disk =>
    some (s.record (removeSource env.json id disk s.file) (fun _ => .removed id))

end CertificateApi

/-! ### What a step does -/

section Request

variable {Document : Type} {env : SecretsEnv Document}

variable {disk : StoreDisk} {file : Option Document} {source : CertificateSource}
  {bundle : CertificateBundle}

theorem permits_of_authorizeScope {header : Option (Option Text)} {scope token : Text}
    {now : UtcTime} (h : authorizeScope env header scope disk now file = .ok (.delegated token)) :
    bearerToken header = .ok token ∧
      (stored env.json file).permits env.security env.parseRfc3339 now token scope =
        true := by
  unfold authorizeScope at h
  (repeat' split at h) <;> cases h
  exact ⟨‹_›, (permits_eq_ok ‹_›).symm⟩

theorem mem_of_findSource {id : Text} (h : findSource env disk id file = .ok source) :
    source ∈ (stored env.json file).certificates ∧ source.id = id := by
  unfold findSource at h
  (repeat' split at h) <;> cases h
  next hsources _ hfound =>
  rw [← sources_eq_ok hsources]
  exact ⟨List.mem_of_find?_eq_some hfound, by simpa using List.find?_some hfound⟩

theorem id_of_certificateResponse {files : CertificateFiles} {ifNoneMatch : Option Text}
    {etag : Text} (h : certificateResponse env files ifNoneMatch source = .bundle bundle etag) :
    bundle.id = source.id := by
  simp only [certificateResponse] at h
  (repeat' split at h) <;> cases h
  next hread _ => exact readBundle_id hread

end Request

/-- The changes of the data, with their events. -/
inductive StoreChange (security : TokenSecurity) (data : SecretsData) :
    SecretsData → StoreEvent → Prop
  | issued {scopes : List Text} {draw : CredentialDraw security} {changed : SecretsData}
      {answer : IssuedCredential} (hissued : SecretsData.Issued scopes draw data changed answer) :
      StoreChange security data changed
        (.issued answer.token answer.scopes data.certificates)
  | revoked (id : Text) : StoreChange security data (data.revoke id) (.revoked id)
  | registered (source : CertificateSource) :
      StoreChange security data (data.register source) (.registered source)
  | removed (id : Text) : StoreChange security data (data.removeSource id) (.removed id)

variable {source : CertificateSource} {bundle : CertificateBundle} {disk : StoreDisk}

theorem StoreChange.not_returned {security : TokenSecurity} {data changed : SecretsData}
    {event : StoreEvent} (h : StoreChange security data changed event) {caller : Caller}
    {mark : Nat} : event ≠ .returned caller source mark bundle := by
  cases h <;> nofun

namespace CertificateApi

variable {Document : Type} {env : SecretsEnv Document}

/-- Everything a step can do. -/
inductive Change (env : SecretsEnv Document) (s : CertificateApi Document) :
    ApiAction env.security → CertificateApi Document → Prop
  /-- The request is refused, or the operation fails. -/
  | failed {action : ApiAction env.security} : Change env s action s
  | authorised {request : Nat} {id : Text} {authorization : Authorization env.security}
      {disk : StoreDisk} {now : UtcTime} {caller : Caller}
      (hcaller : authorizeScope env authorization.header (certificateScope id) disk now s.file =
        .ok caller) :
      Change env s (.authorise request id authorization disk now)
        { s with requests := s.requests.put request (.authorised id caller s.log.length) }
  /-- The request is answered without a bundle. -/
  | dropped {action : ApiAction env.security} {request : Nat} :
      Change env s action { s with requests := s.requests.drop request }
  | found {request : Nat} {disk : StoreDisk} {caller : Caller} {mark : Nat}
      {source : CertificateSource}
      (hauthorised : s.requests.lookup request = some (.authorised source.id caller mark))
      (hsource : source ∈ (stored env.json s.file).certificates) :
      Change env s (.lookup request disk)
        { s with requests := s.requests.put request (.found caller source s.log.length) }
  | returned {request : Nat} {files : CertificateFiles} {ifNoneMatch : Option Text}
      {caller : Caller} {source : CertificateSource} {mark : Nat} {bundle : CertificateBundle}
      (hfound : s.requests.lookup request = some (.found caller source mark))
      (hid : bundle.id = source.id) :
      Change env s (.respond request files ifNoneMatch)
        { s with
          requests := s.requests.drop request
          log := s.log ++ [.returned caller source mark bundle] }
  | stored {action : ApiAction env.security} {file : Option Document} {event : StoreEvent}
      (hchange : StoreChange env.security (stored env.json s.file)
        (stored env.json file) event) :
      Change env s action { s with file := file, log := s.log ++ [event] }

variable {s t : CertificateApi Document} {action : ApiAction env.security}

theorem change_of_update {α : Type} {edit : SecretsData → Except String (SecretsData × α)}
    {event : α → StoreEvent}
    (hedit : ∀ changed answer, edit (stored env.json s.file) = .ok (changed, answer) →
      StoreChange env.security (stored env.json s.file) changed (event answer)) :
    Change env s action (s.record (update env.json edit disk s.file) event) := by
  rcases update_cases edit disk s.file with ⟨message, hfailed⟩ |
    ⟨changed, answer, saved, hok, hupdate, hstored⟩
  · rw [record, hfailed]
    exact .failed
  · rw [record, hupdate]
    exact .stored (hstored ▸ hedit changed answer hok)

theorem change_of_step (h : step env s action = some t) : Change env s action t := by
  cases action with
  | authorise request id authorization disk now =>
    simp only [step] at h
    (repeat' split at h) <;> cases h
    · exact .failed
    · next hcaller => exact .authorised hcaller
  | lookup request disk =>
    simp only [step] at h
    (repeat' split at h) <;> cases h
    · exact .dropped
    · next hauthorised _ _ hfound =>
      obtain ⟨hsource, rfl⟩ := mem_of_findSource hfound
      exact .found hauthorised hsource
  | respond request files ifNoneMatch =>
    simp only [step] at h
    (repeat' split at h) <;> cases h
    · next hfound _ _ _ hbundle => exact .returned hfound (id_of_certificateResponse hbundle)
    · exact .dropped
  | issue name scopes expiresIn draw disk =>
    cases h
    exact change_of_update (fun _ _ hissue => .issued (SecretsData.issued_of_issue hissue))
  | revoke id disk =>
    cases h
    refine change_of_update (fun _ _ hrevoke => ?_)
    cases hrevoke
    exact .revoked id
  | register source files disk =>
    simp only [step] at h
    split at h <;> cases h
    · exact .failed
    · next prepared metadata hprepared =>
      rw [register, hprepared]
      refine change_of_update (fun _ _ hregister => ?_)
      cases hregister
      exact .registered prepared
  | removeSource id disk =>
    cases h
    refine change_of_update (fun _ _ hremove => ?_)
    cases hremove
    exact .removed id

end CertificateApi

end FerrumProxy
