import FerrumProxy.CertificateRequests

/-!
# Who receives a certificate

A delegated credential names the certificates it may read by their ids, and the removal of a source
takes its scope from every credential.  A request is authorised before it looks up its source, so
what it finds can be another source that has been registered under the id since.
-/

namespace FerrumProxy

open Str

namespace CertificateApi

variable {Document : Type} (env : SecretsEnv Document)

/-- If the request finds a source, its id has not been removed since the request was
authorised. -/
def Unremoved (s : CertificateApi Document) : ApiAction env.security → Prop
  | .lookup request _ =>
    match s.requests.lookup request with
    | some (.authorised id (.delegated _) mark) =>
      (∃ source ∈ (Store.stored env.json s.file).certificates, source.id = id) →
        .removed id ∉ s.log.drop mark
    | _ => True
  | _ => True

instance instDecidableUnremoved (s : CertificateApi Document) :
    ∀ action : ApiAction env.security, Decidable (s.Unremoved env action)
  | .lookup request _ =>
    match hrequest : s.requests.lookup request with
    | some (.authorised id (.delegated _) mark) =>
      decidable_of_iff
        ((∃ source ∈ (Store.stored env.json s.file).certificates, source.id = id) →
          .removed id ∉ s.log.drop mark)
        (by simp only [Unremoved, hrequest])
    | some (.authorised _ .manager _) => isTrue (by simp only [Unremoved, hrequest])
    | some (.found _ _ _) => isTrue (by simp only [Unremoved, hrequest])
    | none => isTrue (by simp only [Unremoved, hrequest])
  | .authorise _ _ _ _ _ => isTrue trivial
  | .respond _ _ _ => isTrue trivial
  | .issue _ _ _ _ _ => isTrue trivial
  | .revoke _ _ => isTrue trivial
  | .register _ _ _ => isTrue trivial
  | .removeSource _ _ => isTrue trivial

end CertificateApi

open CertificateApi

/-! ### Entitlement -/

/-- The token was issued with the scope of the id while these sources were in place,
one of them under the id; the id was not removed in what happened after. -/
def Grant (log : List StoreEvent) (token id : Text) (sources : List CertificateSource)
    (after : List StoreEvent) : Prop :=
  ∃ before scopes, log = before ++ .issued token scopes sources :: after ∧
    certificateScope id ∈ scopes ∧ (∃ earlier ∈ sources, earlier.id = id) ∧ .removed id ∉ after

def Granted (log : List StoreEvent) (token id : Text) : Prop :=
  ∃ sources after, Grant log token id sources after

/-- The token was issued for this very registration, or for one that it replaced
without a removal in between. -/
def Entitled (log : List StoreEvent) (token : Text) (source : CertificateSource) : Prop :=
  ∃ sources after, Grant log token source.id sources after ∧
    (source ∈ sources ∨ .registered source ∈ after)

/-- The property held when so much had happened. -/
def HeldAt (log : List StoreEvent) (mark : Nat) (P : List StoreEvent → Prop) : Prop :=
  mark ≤ log.length ∧ P (log.take mark)

/-- Every bundle that went to a delegated token was of a source it was entitled to when
the source was looked up. -/
def Honest (log : List StoreEvent) : Prop :=
  ∀ token source mark bundle, .returned (.delegated token) source mark bundle ∈ log →
    bundle.id = source.id ∧ HeldAt log mark (Entitled · token source)

open List

section Log

variable {log more before after : List StoreEvent} {event : StoreEvent} {token id : Text}
  {source : CertificateSource} {mark : Nat} {P : List StoreEvent → Prop}

theorem HeldAt.append (h : HeldAt log mark P) : HeldAt (log ++ more) mark P := by
  obtain ⟨hmark, hheld⟩ := h
  refine ⟨hmark.trans (by simp), ?_⟩
  rwa [take_append_of_le_length hmark]

theorem heldAt_length (h : P log) : HeldAt log log.length P := by
  rw [HeldAt, take_length]
  exact ⟨le_rfl, h⟩

/-- A grant lasts until a removal. -/
theorem Grant.append {sources : List CertificateSource} (h : Grant log token id sources after)
    (hmore : .removed id ∉ more) : Grant (log ++ more) token id sources (after ++ more) := by
  obtain ⟨before, scopes, rfl, hscope, hplace, hafter⟩ := h
  refine ⟨before, scopes, by simp, hscope, hplace, ?_⟩
  exact fun hmem => (mem_append.mp hmem).elim hafter hmore

theorem Granted.append (h : Granted log token id) (hmore : .removed id ∉ more) :
    Granted (log ++ more) token id := by
  obtain ⟨sources, after, hgrant⟩ := h
  exact ⟨sources, after ++ more, hgrant.append hmore⟩

/-- A grant outlasts what happened since, if there was no removal in it. -/
theorem Granted.of_heldAt (h : HeldAt log mark (Granted · token id))
    (hdrop : .removed id ∉ log.drop mark) : Granted log token id := by
  rw [← take_append_drop mark log]
  exact h.2.append hdrop

/-- **A removal ends every entitlement** that is not issued again. -/
theorem not_granted_of_removed (hagain : ∀ scopes sources, .issued token scopes sources ∉ after) :
    ¬ Granted (before ++ .removed id :: after) token id := by
  intro hgranted
  obtain ⟨sources, later, first, scopes, hlog, -, -, hremoved⟩ := hgranted
  -- The issue is after the removal, or the removal is after the issue.
  rcases append_eq_append_iff.mp hlog with ⟨middle, rfl, hrest⟩ | ⟨middle, rfl, hrest⟩
  · cases middle with
    | nil => cases hrest
    | cons _ middle =>
      obtain ⟨-, rfl⟩ := List.cons.inj hrest
      exact hagain scopes sources (by simp)
  · cases middle with
    | nil => cases hrest
    | cons _ middle =>
      obtain ⟨-, rfl⟩ := List.cons.inj hrest
      exact hremoved (by simp)

/-- Since each issue, the sources in place were there or have been registered. -/
def Traced (log : List StoreEvent) (certificates : List CertificateSource) : Prop :=
  ∀ before token scopes sources after, log = before ++ .issued token scopes sources :: after →
    ∀ source ∈ certificates, source ∈ sources ∨ .registered source ∈ after

variable {certificates : List CertificateSource}

/-- What is granted for an id covers the source in place. -/
theorem Granted.entitled (h : Granted log token source.id) (htraced : Traced log certificates)
    (hsource : source ∈ certificates) : Entitled log token source := by
  obtain ⟨sources, after, hgrant⟩ := h
  refine ⟨sources, after, hgrant, ?_⟩
  obtain ⟨before, scopes, hlog, -⟩ := hgrant
  exact htraced before token scopes sources after hlog source hsource

/-- The last event is the one asked for, or it is among those after it. -/
theorem concat_eq_append_cons {wanted : StoreEvent}
    (h : log ++ [event] = before ++ wanted :: after) :
    (after = [] ∧ event = wanted) ∨
      ∃ rest, after = rest ++ [event] ∧ log = before ++ wanted :: rest := by
  rcases eq_nil_or_concat after with rfl | ⟨rest, last, rfl⟩
  · obtain ⟨-, hevent⟩ := append_inj' h rfl
    exact .inl ⟨rfl, singleton_inj.mp hevent⟩
  · rw [concat_eq_append, ← cons_append, ← append_assoc] at h
    obtain ⟨hlog, hevent⟩ := append_inj' h rfl
    rw [singleton_inj.mp hevent]
    exact .inr ⟨rest, concat_eq_append, hlog⟩

/-- Sources may go, and the ones that come are in place at an issue or registered. -/
theorem Traced.concat {changed : List CertificateSource} (h : Traced log certificates)
    (hchanged : ∀ source ∈ changed, source ∈ certificates ∨ event = .registered source)
    (hissued : ∀ token scopes sources, event = .issued token scopes sources → sources = changed) :
    Traced (log ++ [event]) changed := by
  intro before token scopes sources after hlog source hsource
  rcases concat_eq_append_cons hlog with ⟨-, hevent⟩ | ⟨rest, rfl, hold⟩
  · rw [hissued token scopes sources hevent]
    exact .inl hsource
  · rw [mem_append]
    rcases hchanged source hsource with hkept | hnew
    · exact (h before token scopes sources rest hold source hkept).imp_right .inl
    · exact .inr (.inr (by simp [hnew]))

/-- A log stays honest if its last event is. -/
theorem Honest.concat (h : Honest log)
    (hreturned : ∀ token source mark bundle,
      event = .returned (.delegated token) source mark bundle →
        bundle.id = source.id ∧ HeldAt log mark (Entitled · token source)) :
    Honest (log ++ [event]) := by
  intro token source mark bundle hmem
  have hheld : bundle.id = source.id ∧ HeldAt log mark (Entitled · token source) := by
    rcases mem_append.mp hmem with hold | hnew
    · exact h token source mark bundle hold
    · exact hreturned token source mark bundle (mem_singleton.mp hnew).symm
  exact ⟨hheld.1, hheld.2.append⟩

end Log

/-! ### What the store's data rest on -/

/-- Every certificate scope of a stored credential is backed by a grant to the token
whose hash is stored. -/
structure SecretsData.Backed (security : TokenSecurity) (log : List StoreEvent)
    (data : SecretsData) : Prop where
  salted : data.salt ∈ security.salts ∨ (data.salt = [] ∧ data.credentials = [])
  credentials : ∀ item ∈ data.credentials, ∃ token ∈ security.tokens,
    item.tokenHash = security.hashToken token data.salt ∧
      ∀ id, certificateScope id ∈ item.scopes → Granted log token id
  traced : Traced log data.certificates

namespace SecretsData.Backed

variable {security : TokenSecurity} {log : List StoreEvent} {data changed : SecretsData}

theorem start : Backed security [] {} where
  salted := .inr ⟨rfl, rfl⟩
  credentials _ h := absurd h not_mem_nil
  traced _ _ _ _ _ _ _ h := absurd h not_mem_nil

/-- Stored credentials keep their grants when they keep their hashes and lose the
scopes that are removed. -/
theorem concat {event : StoreEvent} (h : Backed security log data)
    (hsalt : changed.salt = data.salt)
    (hcredentials : ∀ item ∈ changed.credentials, ∃ old ∈ data.credentials,
      item.tokenHash = old.tokenHash ∧
        ∀ id, certificateScope id ∈ item.scopes →
          certificateScope id ∈ old.scopes ∧ event ≠ .removed id)
    (hcertificates : ∀ source ∈ changed.certificates,
      source ∈ data.certificates ∨ event = .registered source)
    (hissued : ∀ token scopes sources, event ≠ .issued token scopes sources) :
    Backed security (log ++ [event]) changed where
  salted := by
    rw [hsalt]
    refine h.salted.imp_right (fun ⟨hempty, hnone⟩ => ⟨hempty, ?_⟩)
    refine eq_nil_iff_forall_not_mem.mpr (fun item hitem => ?_)
    obtain ⟨old, hold, -⟩ := hcredentials item hitem
    exact absurd hold (hnone ▸ not_mem_nil)
  credentials item hitem := by
    obtain ⟨old, hold, hhash, hscopes⟩ := hcredentials item hitem
    obtain ⟨token, htoken, htokenHash, hgranted⟩ := h.credentials old hold
    refine ⟨token, htoken, by rw [hhash, htokenHash, hsalt], fun id hid => ?_⟩
    obtain ⟨hidOld, hne⟩ := hscopes id hid
    exact (hgranted id hidOld).append (by simpa using hne.symm)
  traced := h.traced.concat hcertificates (fun token scopes sources hevent =>
    absurd hevent (hissued token scopes sources))

variable {caller : Caller} {bundle : CertificateBundle} {fresh : Text} {now : UtcTime}

section

variable (h : Backed security log data)

include h

theorem returned {source : CertificateSource} {mark : Nat} :
    Backed security (log ++ [.returned caller source mark bundle]) data := by
  refine h.concat rfl (fun item hitem => ?_) (fun _ hsource => .inl hsource) nofun
  exact ⟨item, hitem, rfl, fun _ hid => ⟨hid, nofun⟩⟩

theorem revoke (id : Text) : Backed security (log ++ [.revoked id]) (data.revoke id) := by
  refine h.concat rfl (fun item hitem => ?_) (fun _ hsource => .inl hsource) nofun
  exact ⟨item, mem_of_mem_filter hitem, rfl, fun _ hid => ⟨hid, nofun⟩⟩

theorem register (source : CertificateSource) :
    Backed security (log ++ [.registered source]) (data.register source) := by
  refine h.concat rfl (fun item hitem => ?_) (fun other hother => ?_) nofun
  · exact ⟨item, hitem, rfl, fun _ hid => ⟨hid, nofun⟩⟩
  · rcases mem_append.mp hother with hold | hnew
    · exact .inl (mem_of_mem_filter hold)
    · exact .inr (congrArg StoreEvent.registered (mem_singleton.mp hnew).symm)

theorem removeSource (id : Text) :
    Backed security (log ++ [.removed id]) (data.removeSource id) := by
  refine h.concat rfl (fun item hitem => ?_)
    (fun _ hsource => .inl (mem_of_mem_filter hsource)) nofun
  obtain ⟨old, hold, rfl⟩ := List.mem_map.mp hitem
  refine ⟨old, hold, rfl, fun other hother => ?_⟩
  obtain ⟨hscope, hne⟩ := mem_filter.mp hother
  refine ⟨hscope, fun hevent => ?_⟩
  cases hevent
  simp at hne

end

/-! Issuing sets the salt of an empty store and then keeps it. -/

theorem saltOr_eq (h : data.salt ∈ security.salts) : data.saltOr fresh = data.salt := by
  have hne : data.salt ≠ [] := fun hempty => security.salts_ne (hempty ▸ h)
  simp [SecretsData.saltOr, hne]

section

variable (h : Backed security log data)

include h

theorem saltOr_mem (hfresh : fresh ∈ security.salts) : data.saltOr fresh ∈ security.salts := by
  rcases h.salted with hsalt | ⟨hempty, -⟩
  · rwa [saltOr_eq hsalt]
  · simpa [SecretsData.saltOr, hempty] using hfresh

theorem salt_mem {item : Credential} (hitem : item ∈ data.credentials) :
    data.salt ∈ security.salts := by
  rcases h.salted with hsalt | ⟨-, hnone⟩
  · exact hsalt
  · exact absurd hitem (hnone ▸ not_mem_nil)

/-- An issued credential is backed by its issue. -/
theorem issue {scopes : List Text} {draw : CredentialDraw security} {answer : IssuedCredential}
    (hissued : SecretsData.Issued scopes draw data changed answer) :
    Backed security (log ++ [.issued answer.token answer.scopes data.certificates]) changed where
  salted := by
    rw [hissued.salt_eq]
    exact .inl (h.saltOr_mem draw.salt_mem)
  credentials item hitem := by
    obtain ⟨credential, hcredentials, hscopes, hhash⟩ := hissued.credentials_eq
    rw [hcredentials, mem_append, mem_singleton] at hitem
    rcases hitem with hold | rfl
    · obtain ⟨token, htoken, htokenHash, hgranted⟩ := h.credentials item hold
      refine ⟨token, htoken, ?_, fun id hid => (hgranted id hid).append (by simp)⟩
      rw [hissued.salt_eq, saltOr_eq (h.salt_mem hold), htokenHash]
    · -- The new credential: its scopes were checked against the sources in place.
      refine ⟨draw.raw, draw.raw_mem, hhash, fun id hid => ?_⟩
      rw [hscopes] at hid
      have hplace := registered_of_checkScope (hissued.checked _ hid)
      rw [hissued.token_eq, hissued.scopes_eq]
      exact ⟨data.certificates, [], log, scopes, rfl, hid, hplace, not_mem_nil⟩
  traced := by
    rw [hissued.certificates_eq]
    refine h.traced.concat (fun _ hsource => .inl hsource) (fun _ _ _ hevent => ?_)
    cases hevent
    rfl

/-- Every change keeps the data backed. -/
theorem change {event : StoreEvent} (hchange : StoreChange security data changed event) :
    Backed security (log ++ [event]) changed := by
  cases hchange with
  | issued hissued => exact h.issue hissued
  | revoked id => exact h.revoke id
  | registered source => exact h.register source
  | removed id => exact h.removeSource id

/-- **What `permits` accepts was granted.** -/
theorem granted_of_permits {parseRfc3339 : Text → Option UtcTime} {token id : Text}
    (htoken : token ∈ security.tokens)
    (hpermits : data.permits security parseRfc3339 now token (certificateScope id) = true) :
    Granted log token id := by
  obtain ⟨item, hitem, hequal, hscope, -⟩ := SecretsData.permits_iff.mp hpermits
  obtain ⟨issued, hissued, hhash, hgranted⟩ := h.credentials item hitem
  rw [hhash] at hequal
  rw [← security.token_unique hissued htoken (h.salt_mem hitem) hequal]
  exact hgranted id hscope

end

end SecretsData.Backed

/-! ### Every run -/

namespace CertificateApi

variable {Document : Type} {env : SecretsEnv Document} {s t : CertificateApi Document}
  {action : ApiAction env.security}

/-- What a request in flight rests on. -/
def TaskSound (log : List StoreEvent) : CertificateTask → Prop
  | .authorised id (.delegated token) mark => HeldAt log mark (Granted · token id)
  | .found (.delegated token) source mark => HeldAt log mark (Entitled · token source)
  | _ => True

theorem TaskSound.append {log more : List StoreEvent} {task : CertificateTask}
    (h : TaskSound log task) : TaskSound (log ++ more) task := by
  cases task with
  | authorised id caller mark =>
    cases caller with
    | manager => trivial
    | delegated token => exact HeldAt.append (P := (Granted · token id)) h
  | found caller source mark =>
    cases caller with
    | manager => trivial
    | delegated token => exact HeldAt.append (P := (Entitled · token source)) h

/-- What every run keeps. -/
structure Sound (env : SecretsEnv Document) (s : CertificateApi Document) : Prop where
  backed : (Store.stored env.json s.file).Backed env.security s.log
  requests : s.requests.All (TaskSound s.log)
  honest : Honest s.log

theorem sound_start : Sound env start where
  backed := SecretsData.Backed.start
  requests _ _ h := by cases h
  honest _ _ _ _ h := absurd h not_mem_nil

variable {request : Nat} {disk : StoreDisk} {now : UtcTime} {caller : Caller}
  {bundle : CertificateBundle}

theorem Sound.authorised {id : Text} {authorization : Authorization env.security}
    (h : Sound env s)
    (hcaller : authorizeScope env authorization.header (certificateScope id) disk now s.file =
      .ok caller) :
    Sound env
      { s with requests := s.requests.put request (.authorised id caller s.log.length) } where
  backed := h.backed
  requests := by
    refine h.requests.put ?_
    cases caller with
    | manager => trivial
    | delegated token =>
      obtain ⟨hbearer, hpermits⟩ := permits_of_authorizeScope hcaller
      have htoken := authorization.token_mem token hbearer
      exact heldAt_length (P := (Granted · token id)) (h.backed.granted_of_permits htoken hpermits)
  honest := h.honest

/-- The lookup finds a source that the grant still covers. -/
theorem Sound.found {mark : Nat} {source : CertificateSource} (h : Sound env s)
    (hunremoved : Unremoved env s (.lookup request disk))
    (hauthorised : s.requests.lookup request = some (.authorised source.id caller mark))
    (hsource : source ∈ (Store.stored env.json s.file).certificates) :
    Sound env
      { s with requests := s.requests.put request (.found caller source s.log.length) } where
  backed := h.backed
  requests := by
    refine h.requests.put ?_
    cases caller with
    | manager => trivial
    | delegated token =>
      have hgranted := h.requests request _ hauthorised
      simp only [Unremoved, hauthorised] at hunremoved
      have hnow := Granted.of_heldAt hgranted (hunremoved ⟨source, hsource, rfl⟩)
      exact heldAt_length (P := (Entitled · token source)) (hnow.entitled h.backed.traced hsource)
  honest := h.honest

/-- What is returned was found for the caller. -/
theorem Sound.returned {source : CertificateSource} {mark : Nat} (h : Sound env s)
    (hfound : s.requests.lookup request = some (.found caller source mark))
    (hid : bundle.id = source.id) :
    Sound env
      { s with
        requests := s.requests.drop request
        log := s.log ++ [.returned caller source mark bundle] } where
  backed := h.backed.returned
  requests id task htask := (h.requests.drop id task htask).append
  honest := by
    refine h.honest.concat (fun token source mark bundle hevent => ?_)
    cases hevent
    exact ⟨hid, h.requests request _ hfound⟩

theorem Sound.stored {file : Option Document} {event : StoreEvent} (h : Sound env s)
    (hchange : StoreChange env.security (Store.stored env.json s.file)
      (Store.stored env.json file) event) :
    Sound env { s with file := file, log := s.log ++ [event] } where
  backed := h.backed.change hchange
  requests id task htask := (h.requests id task htask).append
  honest := h.honest.concat (fun _ _ _ _ hevent => absurd hevent hchange.not_returned)

/-- Every step keeps the state sound. -/
theorem Sound.step (h : Sound env s) (hunremoved : Unremoved env s action)
    (hstep : step env s action = some t) : Sound env t := by
  cases change_of_step hstep with
  | failed => exact h
  | authorised hcaller => exact h.authorised hcaller
  | dropped => exact ⟨h.backed, h.requests.drop, h.honest⟩
  | found hauthorised hsource => exact h.found hunremoved hauthorised hsource
  | returned hfound hid => exact h.returned hfound hid
  | stored hchange => exact h.stored hchange

end CertificateApi

/-- **A bundle goes only to a token that was issued for it**, in every run in which no
id is removed between the authorisation and the lookup of a request for it. -/
theorem returned_bundles_entitled {Document : Type} {env : SecretsEnv Document}
    {s : CertificateApi Document}
    (hreach : Runs.Reaches (step env) (Unremoved env)
      start s) : Honest s.log := by
  have hsound : Sound env s :=
    hreach.invariant sound_start
      (fun _ _ _ hsound hunremoved hstep => hsound.step hunremoved hstep)
  exact hsound.honest

/-! ### A credential in use -/

def plainJson : SerdeJson SecretsData where
  toVecPretty := .ok
  fromStr := .ok
  size _ := 0
  fromStr_toVecPretty h := by
    cases h
    rfl

def sampleEnv : SecretsEnv SecretsData where
  json := plainJson
  security := oneToken
  parseRfc3339 _ := none
  managerToken := "manager".toList

/-- Every file is readable and holds its own name. -/
def sampleFiles : CertificateFiles where
  isAbsolute _ := true
  join path := path
  isFile _ := true
  readBounded path := .ok path
  certs _ := some [[1]]
  parseX509 _ :=
    some ⟨true, some (some ["play.example.com".toList]), some "2027-01-01T00:00:00+00:00".toList⟩
  privateKey _ := some (some [2])
  withSingleCert _ _ := true
  toVec _ certificatePem _ := .ok (toUtf8 certificatePem)

def sampleSource (certificatePath privateKeyPath : String) : CertificateSource where
  id := "play".toList
  domain := "play.example.com".toList
  certificatePath := certificatePath.toList
  privateKeyPath := privateKeyPath.toList
  advertiseHost := none
  advertisePort := none

def firstSource : CertificateSource := sampleSource "/first.pem" "/first.key"

def secondSource : CertificateSource := sampleSource "/second.pem" "/second.key"

def secondBundle : CertificateBundle where
  id := "play".toList
  domain := "play.example.com".toList
  revision := lowerHex (firstBytes.digest (toUtf8 "/second.pem".toList))
  expiresAt := "2027-01-01T00:00:00+00:00".toList
  certificateSha256 := lowerHex (firstBytes.digest [1])
  certificatePem := "/second.pem".toList
  privateKeyPem := "/second.key".toList
  advertiseHost := none
  advertisePort := none

def sampleDraw : CredentialDraw sampleEnv.security where
  salt := "salt".toList
  raw := "fpc_1".toList
  id := "cred_1".toList
  now := "2026-01-01T00:00:00+00:00".toList
  later _ := none
  salt_mem := Set.mem_singleton _
  raw_mem := Set.mem_singleton _

def sampleAuthorization : Authorization sampleEnv.security where
  header := some (some "Bearer fpc_1".toList)
  token_mem token h := by
    have hbearer : bearerToken (some (some "Bearer fpc_1".toList)) = .ok "fpc_1".toList := by
      decide +kernel
    rw [hbearer] at h
    cases h
    exact Set.mem_singleton _

/-- A source is registered, a credential is issued for it, and a request with its
token is authorised. -/
def authorisedRequest : List (ApiAction sampleEnv.security) :=
  [.register firstSource sampleFiles {},
    .issue "game".toList [certificateScope "play".toList] none sampleDraw {},
    .authorise 0 "play".toList sampleAuthorization {} 0]

/-- The source is registered again before the request looks it up. -/
def replacedSource : List (ApiAction sampleEnv.security) :=
  [.register secondSource sampleFiles {}, .lookup 0 {}, .respond 0 sampleFiles none]

/-- The request gets the bundle of the source that was registered again. -/
theorem returned_bundles_entitled_replaced :
    (Runs.run (step sampleEnv) start
      (authorisedRequest ++ replacedSource)).map (fun s => s.log.getLast?) =
        some (some (.returned (.delegated "fpc_1".toList) secondSource 3 secondBundle)) ∧
    ∀ s, Runs.run (step sampleEnv) start
      (authorisedRequest ++ replacedSource) = some s → Honest s.log := by
  refine ⟨by decide +kernel, fun s hrun => ?_⟩
  have hguarded : Runs.Guarded (step sampleEnv) (Unremoved sampleEnv)
      start (authorisedRequest ++ replacedSource) := by decide +kernel
  exact returned_bundles_entitled (Runs.reaches_of_guarded hguarded hrun)

/-- The source is removed, which takes the scope from the credential, and another one
is registered under its id: the request, authorised before, reads the new key. -/
theorem returned_to_removed_credential :
    ¬ ∀ s, Runs.Reaches (step sampleEnv) Runs.Always start s →
      Honest s.log := by
  intro hall
  have hlog : (Runs.run (step sampleEnv) start
      (authorisedRequest ++ .removeSource "play".toList {} :: replacedSource)).map (·.log) =
      some ([.registered firstSource,
        .issued "fpc_1".toList [certificateScope "play".toList] [firstSource]] ++
        .removed secondSource.id :: [.registered secondSource,
        .returned (.delegated "fpc_1".toList) secondSource 4 secondBundle]) := by
    decide +kernel
  obtain ⟨s, hrun, hlog⟩ := Option.map_eq_some_iff.mp hlog
  have hhonest := hall s (Runs.reaches_of_run hrun)
  rw [hlog] at hhonest
  obtain ⟨-, -, sources, after, hgrant, -⟩ :=
    hhonest "fpc_1".toList secondSource 4 secondBundle (by simp)
  have hgranted : Granted ([.registered firstSource,
      .issued "fpc_1".toList [certificateScope "play".toList] [firstSource]] ++
      .removed secondSource.id :: [.registered secondSource])
      "fpc_1".toList secondSource.id := ⟨sources, after, hgrant⟩
  exact not_granted_of_removed (fun _ _ hmem => by simp at hmem) hgranted

end FerrumProxy
