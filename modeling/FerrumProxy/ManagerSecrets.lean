import FerrumProxy.RelayAuth
import FerrumProxy.TokenSecurity

/-!
# The credential store of the manager API

The manager keeps its delegated credentials and certificate sources in one JSON file.  Every
operation of the store takes a lock, loads the file and, if it changes anything, saves it through a
temporary file, so that a failed save leaves the old file.
-/

namespace FerrumProxy

open Str Wire

/-- A delegated credential. -/
structure Credential where
  id : Text
  name : Text
  scopes : List Text
  createdAt : Text
  expiresAt : Option Text
  tokenHash : Text := []
  deriving DecidableEq

/-- Where a certificate is read from. -/
structure CertificateSource where
  id : Text
  domain : Text
  certificatePath : Text
  privateKeyPath : Text
  advertiseHost : Option IpAddr
  advertisePort : Option UInt16
  deriving DecidableEq

/-- What is returned for a source. -/
structure CertificateBundle where
  id : Text
  domain : Text
  revision : Text
  expiresAt : Text
  certificateSha256 : Text
  certificatePem : Text
  privateKeyPem : Text
  advertiseHost : Option IpAddr
  advertisePort : Option UInt16
  deriving DecidableEq

/-- The public part of a bundle. -/
structure BundleMetadata where
  id : Text
  domain : Text
  revision : Text
  expiresAt : Text
  certificateSha256 : Text
  advertiseHost : Option IpAddr
  advertisePort : Option UInt16

def CertificateBundle.metadata (bundle : CertificateBundle) : BundleMetadata :=
  { id := bundle.id
    domain := bundle.domain
    revision := bundle.revision
    expiresAt := bundle.expiresAt
    certificateSha256 := bundle.certificateSha256
    advertiseHost := bundle.advertiseHost
    advertisePort := bundle.advertisePort }

/-- `Data`: what the store persists. -/
structure SecretsData where
  salt : Text := []
  credentials : List Credential := []
  certificates : List CertificateSource := []
  deriving DecidableEq

/-! ### The file -/

/-- JSON serialisation of the store's data. -/
structure SerdeJson (Document : Type) where
  toVecPretty : SecretsData → Except String Document
  fromStr : Document → Except String SecretsData
  size : Document → Nat
  fromStr_toVecPretty : ∀ {data document}, toVecPretty data = .ok document →
    fromStr document = .ok data

/-- What the file system does during an operation. -/
structure StoreDisk where
  /-- Why the file cannot be read. -/
  readError : Option String := none
  saveFails : Bool := false

def fileLimit : Nat := 256 * 1024

/-- `context` on an optional value. -/
def context {α : Type} (message : String) : Option α → Except String α
  | some a => .ok a
  | none => .error message

namespace Store

section File

variable {Document : Type} (json : SerdeJson Document)

def load (disk : StoreDisk) (file : Option Document) : Except String SecretsData :=
  match file with
  | none => .ok {}
  | some document => do
      disk.readError.elim (.ok ()) .error
      ensure (decide (json.size document ≤ fileLimit)) "Source exceeds 256 KiB"
      context "Cannot read manager state" (json.fromStr document).toOption

/-- The file afterwards, and the outcome. -/
def save (disk : StoreDisk) (data : SecretsData) (file : Option Document) :
    Option Document × Except String Unit :=
  match json.toVecPretty data with
  | .error message => (file, .error message)
  | .ok serialized =>
    if fileLimit < json.size serialized then
      (file, .error "Manager state exceeds 256 KiB; remove unused credentials or sources")
    else if disk.saveFails then (file, .error "Cannot save manager state")
    else (some serialized, .ok ())

/-- Load the data, edit them and save them. -/
def update {α : Type} (edit : SecretsData → Except String (SecretsData × α)) (disk : StoreDisk)
    (file : Option Document) : Option Document × Except String α :=
  match load json disk file with
  | .error message => (file, .error message)
  | .ok data =>
    match edit data with
    | .error message => (file, .error message)
    | .ok (changed, answer) =>
      let saved := save json disk changed file
      (saved.1, saved.2.map (fun _ => answer))

/-- The data that a file holds. -/
def stored (file : Option Document) : SecretsData :=
  match load json {} file with
  | .ok data => data
  | .error _ => {}

variable {json} {disk : StoreDisk} {file : Option Document} {data : SecretsData}

theorem stored_of_load (hload : load json disk file = .ok data) : stored json file = data := by
  have hclean : load json {} file = .ok data := by
    cases file with
    | none => exact hload
    | some document =>
      obtain ⟨_, _, hrest⟩ := bind_eq_ok.mp hload
      exact hrest
  rw [stored, hclean]

/-- A save fails and leaves the file, or what it has written is read back. -/
theorem save_cases (json : SerdeJson Document) (disk : StoreDisk) (data : SecretsData)
    (file : Option Document) :
    (∃ message, save json disk data file = (file, .error message)) ∨
      ∃ saved, save json disk data file = (saved, .ok ()) ∧ load json {} saved = .ok data := by
  unfold save
  split
  case h_1 message _ => exact .inl ⟨message, rfl⟩
  case h_2 serialized hserialized =>
      split
      case isTrue => exact .inl ⟨_, rfl⟩
      case isFalse hsize =>
          split
          case isTrue => exact .inl ⟨_, rfl⟩
          case isFalse =>
              refine .inr ⟨_, rfl, ?_⟩
              simp [load, bind, Except.bind, ensure, Nat.le_of_not_lt hsize,
                json.fromStr_toVecPretty hserialized, context, Except.toOption]

/-- **Everything an update can do**: it fails and leaves the file, or the file holds
the edited data. -/
theorem update_cases {α : Type} (edit : SecretsData → Except String (SecretsData × α))
    (disk : StoreDisk) (file : Option Document) :
    (∃ message, update json edit disk file = (file, .error message)) ∨
      ∃ changed answer saved, edit (stored json file) = .ok (changed, answer) ∧
        update json edit disk file = (saved, .ok answer) ∧ stored json saved = changed := by
  unfold update
  split
  case h_1 message _ => exact .inl ⟨message, rfl⟩
  case h_2 data hload =>
      rw [stored_of_load hload]
      split
      case h_1 message _ => exact .inl ⟨message, rfl⟩
      case h_2 changed answer hedit =>
          rcases save_cases json disk changed file with ⟨message, hsave⟩ | ⟨saved, hsave, hload⟩
          · exact .inl ⟨message, by rw [hsave]; rfl⟩
          · exact .inr ⟨changed, answer, saved, hedit, by rw [hsave]; rfl, stored_of_load hload⟩

end File

end Store

/-! ### Credentials -/

/-- How the scopes of certificates start. -/
def certificatesRead : Text := "certificates:read:".toList

/-- The scope that a certificate's bundle is read under. -/
def certificateScope (id : Text) : Text := certificatesRead ++ id

/-- What the generator and the clock give while a credential is issued. -/
structure IssueDraw where
  salt : Text
  raw : Text
  id : Text
  now : Text
  /-- The time so many seconds from now, if it can be represented. -/
  later : Int → Option Text
  salt_ne : salt ≠ []

/-- A draw whose salt and token are among those that occur. -/
structure CredentialDraw (security : TokenSecurity) where
  salt : Text
  raw : Text
  id : Text
  now : Text
  /-- The time so many seconds from now, if it can be represented. -/
  later : Int → Option Text
  salt_mem : salt ∈ security.salts
  raw_mem : raw ∈ security.tokens

def CredentialDraw.toIssueDraw {security : TokenSecurity} (draw : CredentialDraw security) :
    IssueDraw where
  salt := draw.salt
  raw := draw.raw
  id := draw.id
  now := draw.now
  later := draw.later
  salt_ne hempty := security.salts_ne (hempty ▸ draw.salt_mem)

/-- What is answered to an issue. -/
structure IssuedCredential where
  id : Text
  token : Text
  scopes : List Text
  expiresAt : Option Text

def expiryFrom (later : Int → Option Text) : Option Int → Except String (Option Text)
  | none => .ok none
  | some seconds => do
      ensure (decide (0 < seconds)) "expiresIn must be positive"
      (context "expiresIn is too large" (later seconds)).map some

def checkScope (data : SecretsData) (scope : Text) : Except String Unit :=
  if scope = "health:read".toList ∨ scope = "performance:read".toList then .ok ()
  else
    match scope.dropPrefix? certificatesRead with
    | none => .error "Unsupported credential scope"
    | some id =>
      ensure (data.certificates.any (fun source => source.id == id))
        "Certificate scope must name a registered certificate"

def Credential.withoutScope (credential : Credential) (scope : Text) : Credential :=
  { credential with scopes := credential.scopes.filter (fun value => !(value == scope)) }

namespace SecretsData

/-- The salt in use, or a new one. -/
def saltOr (data : SecretsData) (fresh : Text) : Text :=
  if data.salt.isEmpty then fresh else data.salt

def issueWith (sha : Sha256) (name : Text) (scopes : List Text) (expiresIn : Option Int)
    (draw : IssueDraw) (data : SecretsData) : Except String (SecretsData × IssuedCredential) := do
  ensure (!((trim name).isEmpty || decide (80 < byteLen name))) "name must be 1-80 characters"
  ensure (!(scopes.isEmpty || decide (32 < scopes.length))) "Provide 1-32 explicit scopes"
  scopes.forM (checkScope data)
  let expiresAt ← expiryFrom draw.later expiresIn
  let salt := data.saltOr draw.salt
  let credential : Credential :=
    { id := draw.id
      name := trim name
      scopes := scopes
      createdAt := draw.now
      expiresAt := expiresAt
      tokenHash := sha.hashToken draw.raw salt }
  return ({ data with salt := salt, credentials := data.credentials ++ [credential] },
    ⟨draw.id, draw.raw, scopes, expiresAt⟩)

variable {security : TokenSecurity}

def issue (name : Text) (scopes : List Text) (expiresIn : Option Int)
    (draw : CredentialDraw security) (data : SecretsData) :
    Except String (SecretsData × IssuedCredential) :=
  data.issueWith security.toSha256 name scopes expiresIn draw.toIssueDraw

def revoke (id : Text) (data : SecretsData) : SecretsData :=
  { data with credentials := data.credentials.filter (fun item => !(item.id == id)) }

def register (source : CertificateSource) (data : SecretsData) : SecretsData :=
  { data with
    certificates := data.certificates.filter (fun item => !(item.id == source.id)) ++ [source] }

def removeSource (id : Text) (data : SecretsData) : SecretsData :=
  { data with
    certificates := data.certificates.filter (fun source => !(source.id == id))
    credentials := data.credentials.map (·.withoutScope (certificateScope id)) }

end SecretsData

def Credential.unexpired (parseRfc3339 : Text → Option UtcTime) (now : UtcTime)
    (item : Credential) : Bool :=
  match item.expiresAt with
  | none => true
  | some value => (parseRfc3339 value).any (fun expiry => decide (now < expiry))

def SecretsData.permitsWith (sha : Sha256) (parseRfc3339 : Text → Option UtcTime)
    (now : UtcTime) (token scope : Text) (data : SecretsData) : Bool :=
  let hash := sha.hashToken token data.salt
  data.credentials.any (fun item =>
    sha.tokensEqual item.tokenHash hash && item.scopes.any (· == scope) &&
      item.unexpired parseRfc3339 now)

def SecretsData.permits (security : TokenSecurity) (parseRfc3339 : Text → Option UtcTime)
    (now : UtcTime) (token scope : Text) (data : SecretsData) : Bool :=
  data.permitsWith security.toSha256 parseRfc3339 now token scope

/-- What a successful issue does. -/
structure SecretsData.Issued {security : TokenSecurity} (scopes : List Text)
    (draw : CredentialDraw security) (data changed : SecretsData) (answer : IssuedCredential) :
    Prop where
  token_eq : answer.token = draw.raw
  scopes_eq : answer.scopes = scopes
  checked : ∀ scope ∈ scopes, checkScope data scope = .ok ()
  salt_eq : changed.salt = data.saltOr draw.salt
  certificates_eq : changed.certificates = data.certificates
  credentials_eq : ∃ credential : Credential,
    changed.credentials = data.credentials ++ [credential] ∧ credential.scopes = scopes ∧
      credential.tokenHash = security.hashToken draw.raw changed.salt

theorem SecretsData.issued_of_issue {security : TokenSecurity} {name : Text} {scopes : List Text}
    {expiresIn : Option Int} {draw : CredentialDraw security} {data changed : SecretsData}
    {answer : IssuedCredential}
    (h : data.issue name scopes expiresIn draw = .ok (changed, answer)) :
    SecretsData.Issued scopes draw data changed answer := by
  obtain ⟨_, _, h⟩ := bind_eq_ok.mp h
  obtain ⟨_, _, h⟩ := bind_eq_ok.mp h
  obtain ⟨_, hscopes, h⟩ := bind_eq_ok.mp h
  obtain ⟨expiresAt, _, h⟩ := bind_eq_ok.mp h
  cases h
  exact ⟨rfl, rfl, forM_eq_ok.mp hscopes, rfl, rfl, _, rfl, rfl, rfl⟩

theorem certificateScope_ne {plain : Text} (hplain : plain.head? ≠ some 'c') (id : Text) :
    certificateScope id ≠ plain := by
  intro heq
  have hhead : certificatesRead.head? = some 'c' := by decide
  apply hplain
  rw [← heq, certificateScope, List.head?_append, hhead]
  rfl

theorem registered_of_checkScope {data : SecretsData} {id : Text}
    (h : checkScope data (certificateScope id) = .ok ()) :
    ∃ source ∈ data.certificates, source.id = id := by
  have hplain : ¬ (certificateScope id = "health:read".toList ∨
      certificateScope id = "performance:read".toList) :=
    not_or.mpr ⟨certificateScope_ne (by decide) id, certificateScope_ne (by decide) id⟩
  have hdrop : (certificateScope id).dropPrefix? certificatesRead = some id :=
    List.dropPrefix?_eq_some_iff.mpr ⟨certificatesRead, rfl, beq_self_eq_true _⟩
  rw [checkScope, if_neg hplain, hdrop] at h
  simpa using ensure_eq_ok.mp h

variable {sha : Sha256} {parseRfc3339 : Text → Option UtcTime} {now : UtcTime} {token scope : Text}

theorem SecretsData.permitsWith_iff {data : SecretsData} :
    data.permitsWith sha parseRfc3339 now token scope = true ↔
      ∃ item ∈ data.credentials,
        sha.tokensEqual item.tokenHash (sha.hashToken token data.salt) = true ∧
          scope ∈ item.scopes ∧ item.unexpired parseRfc3339 now = true := by
  simp [SecretsData.permitsWith, and_assoc]

theorem SecretsData.permits_iff {security : TokenSecurity} {data : SecretsData} :
    data.permits security parseRfc3339 now token scope = true ↔
      ∃ item ∈ data.credentials,
        security.tokensEqual item.tokenHash (security.hashToken token data.salt) = true ∧
          scope ∈ item.scopes ∧ item.unexpired parseRfc3339 now = true :=
  SecretsData.permitsWith_iff

/-! ### Certificate sources -/

/-- A parsed certificate, at the time of a request. -/
structure X509Certificate where
  isValid : Bool
  /-- The DNS names of the extension, unless it is ill-formed or missing. -/
  subjectAlternativeName : Option (Option (List Text))
  /-- The end of the validity, if it can be represented. -/
  notAfter : Option Text

/-- What a request that reads certificate files uses of the file system, the clock,
and the PEM, X.509, TLS and JSON crates. -/
structure CertificateFiles where
  isAbsolute : Text → Bool
  /-- The path relative to the directory of the configuration. -/
  join : Text → Text
  isFile : Text → Bool
  readBounded : Text → Except String Text
  certs : Text → Option (List Bytes)
  parseX509 : Bytes → Option X509Certificate
  /-- The first private key, unless the text is ill-formed or has none. -/
  privateKey : Text → Option (Option Bytes)
  withSingleCert : List Bytes → Bytes → Bool
  toVec : CertificateSource → Text → Text → Except String Bytes

def domainMatches (pattern domain : Text) : Bool :=
  let pattern := toAsciiLowercase (trimEndMatches '.' pattern)
  let domain := toAsciiLowercase (trimEndMatches '.' domain)
  pattern == domain ||
    (pattern.dropPrefix? "*.".toList).any (fun suffix =>
      (splitOnce '.' domain).any (fun (label, rest) => !label.isEmpty && rest == suffix))

def validId (value : Text) : Bool :=
  !value.isEmpty && decide (byteLen value ≤ 64) &&
    value.all (fun c => c.isAlphanum || c == '_' || c == '-')

def validDomain (value : Text) : Bool :=
  validHostname value && value.contains '.'

/-- The checks of `read_bundle` on the two texts: the leaf certificate. -/
def checkCertificate (files : CertificateFiles) (domain certificatePem privateKeyPem : Text) :
    Except String (Bytes × X509Certificate) := do
  let certs ← context "Invalid certificate PEM" (files.certs certificatePem)
  let leaf ← context "Certificate PEM is empty" certs.head?
  let certificate ← context "Invalid X.509 certificate" (files.parseX509 leaf)
  ensure certificate.isValid "Certificate is expired or not yet valid"
  let extension ← context "Invalid certificate SAN" certificate.subjectAlternativeName
  let names ← context "Certificate has no DNS subject alternative name" extension
  ensure (names.any (domainMatches · domain)) "Certificate does not cover the configured domain"
  let key ← context "Invalid private key PEM" (files.privateKey privateKeyPem)
  let key ← context "Private key PEM is empty" key
  ensure (files.withSingleCert certs key)
    "Certificate and private key do not match or are unsupported"
  return (leaf, certificate)

def readBundle (sha : Sha256) (files : CertificateFiles) (source : CertificateSource) :
    Except String CertificateBundle := do
  let certificatePem ← files.readBounded source.certificatePath
  let privateKeyPem ← files.readBounded source.privateKeyPath
  let (leaf, certificate) ← checkCertificate files source.domain certificatePem privateKeyPem
  let revision ← files.toVec source certificatePem privateKeyPem
  let expiresAt ← context "Invalid certificate expiry" certificate.notAfter
  return { id := source.id
           domain := source.domain
           revision := lowerHex (sha.digest revision)
           expiresAt := expiresAt
           certificateSha256 := lowerHex (sha.digest leaf)
           certificatePem := certificatePem
           privateKeyPem := privateKeyPem
           advertiseHost := source.advertiseHost
           advertisePort := source.advertisePort }

theorem readBundle_id {files : CertificateFiles} {source : CertificateSource}
    {bundle : CertificateBundle} (h : readBundle sha files source = .ok bundle) :
    bundle.id = source.id := by
  obtain ⟨_, _, h⟩ := bind_eq_ok.mp h
  obtain ⟨_, _, h⟩ := bind_eq_ok.mp h
  obtain ⟨_, _, h⟩ := bind_eq_ok.mp h
  obtain ⟨_, _, h⟩ := bind_eq_ok.mp h
  obtain ⟨_, _, h⟩ := bind_eq_ok.mp h
  cases h
  rfl

def CertificateFiles.resolve (files : CertificateFiles) (path : Text) : Except String Text := do
  let absolute := if files.isAbsolute path then path else files.join path
  ensure (files.isFile absolute) "Certificate source file is missing or inaccessible"
  return absolute

/-- What `register` does before it takes the lock: the source to store, and the
answer. -/
def CertificateSource.prepare (sha : Sha256) (files : CertificateFiles)
    (source : CertificateSource) : Except String (CertificateSource × BundleMetadata) := do
  ensure (validId source.id) "id must contain 1-64 ASCII letters, digits, underscores or hyphens"
  let domain := toAsciiLowercase (trimEndMatches '.' (trim source.domain))
  ensure (validDomain domain) "domain must be a DNS hostname"
  ensure (!(source.advertiseHost.any (fun ip => ip.isUnspecified || ip.isMulticast) ||
      source.advertisePort == some 0))
    "Invalid advertised UDP endpoint"
  ensure (source.advertiseHost.isSome == source.advertisePort.isSome)
    "advertiseHost and advertisePort must be provided together"
  let certificatePath ← files.resolve source.certificatePath
  let privateKeyPath ← files.resolve source.privateKeyPath
  let source := { source with
    domain := domain, certificatePath := certificatePath, privateKeyPath := privateKeyPath }
  let bundle ← readBundle sha files source
  return (source, bundle.metadata)

/-! ### The operations of the store -/

namespace Store

variable {Document : Type} (json : SerdeJson Document) (security : TokenSecurity)

def permits (parseRfc3339 : Text → Option UtcTime) (disk : StoreDisk) (now : UtcTime)
    (token scope : Text) (file : Option Document) : Except String Bool :=
  (load json disk file).map (·.permits security parseRfc3339 now token scope)

def sources (disk : StoreDisk) (file : Option Document) : Except String (List CertificateSource) :=
  (load json disk file).map (·.certificates)

variable {security}

def issue (name : Text) (scopes : List Text) (expiresIn : Option Int)
    (draw : CredentialDraw security) :
    StoreDisk → Option Document → Option Document × Except String IssuedCredential :=
  update json (SecretsData.issue name scopes expiresIn draw)

def revoke (id : Text) : StoreDisk → Option Document → Option Document × Except String Unit :=
  update json (fun data => .ok (data.revoke id, ()))

variable (security)

def register (files : CertificateFiles) (source : CertificateSource) (disk : StoreDisk)
    (file : Option Document) : Option Document × Except String BundleMetadata :=
  match source.prepare security.toSha256 files with
  | .error message => (file, .error message)
  | .ok (prepared, metadata) =>
    update json (fun data => .ok (data.register prepared, metadata)) disk file

def removeSource (id : Text) :
    StoreDisk → Option Document → Option Document × Except String Unit :=
  update json (fun data => .ok (data.removeSource id, ()))

variable {json security} {disk : StoreDisk} {file : Option Document}

theorem permits_eq_ok {answer : Bool}
    (h : permits json security parseRfc3339 disk now token scope file = .ok answer) :
    answer = (stored json file).permits security parseRfc3339 now token scope := by
  cases hload : load json disk file with
  | error message => simp [permits, hload, Except.map] at h
  | ok data =>
    simp only [permits, hload, Except.map, Except.ok.injEq] at h
    rw [stored_of_load hload, h]

theorem sources_eq_ok {found : List CertificateSource}
    (h : sources json disk file = .ok found) : found = (stored json file).certificates := by
  cases hload : load json disk file with
  | error message => simp [sources, hload, Except.map] at h
  | ok data =>
    simp only [sources, hload, Except.map, Except.ok.injEq] at h
    rw [stored_of_load hload, h]

end Store

end FerrumProxy
