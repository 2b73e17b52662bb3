import FerrumProxy.ConfigLoad
import FerrumProxy.IpBlockList
import FerrumProxy.JsonReaders

/-!
# Reading a configuration that was written as JSON

The records of the configuration as serde reads them from the YAML text of a JSON value.  For each
record a lemma says what is taken.  Which plain scalars are taken as a text is left to the parameter
`Serde.plainText`: serde may read a number as a text.
-/

namespace FerrumProxy

open Str Js

/-- How serde reads texts that were written as plain scalars, and addresses. -/
structure Serde where
  plainText : Json → Option Text
  addresses : AddressSyntax

def readLimits (json : Json) : Option SharedServiceLimits := do
  asObject json
  let limits : SharedServiceLimits := {}
  let maxBytesPerSecond ← field readU64 limits.maxBytesPerSecond json "maxBytesPerSecond"
  let idleTimeoutSeconds ←
    field readU64 limits.idleTimeoutSeconds json "idleTimeoutSeconds"
  let udpSessionTimeoutSeconds ←
    field readU64 limits.udpSessionTimeoutSeconds json "udpSessionTimeoutSeconds"
  return { maxBytesPerSecond, idleTimeoutSeconds, udpSessionTimeoutSeconds }

def readPortRange (json : Json) : Option SharedServicePortRange := do
  asObject json
  let range : SharedServicePortRange := {}
  let start ← field readU16 range.start json "start"
  let finish ← field readU16 range.finish json "end"
  return { start, finish }

def readQueue (json : Json) : Option SharedServiceQueueConfig := do
  asObject json
  let queue : SharedServiceQueueConfig := {}
  let enabled ← field readBool queue.enabled json "enabled"
  let maxSize ← field readU64 queue.maxSize json "maxSize"
  return { enabled, maxSize }

section Readers

variable (serde : Serde)

def Serde.readText : Json → Option Text
  | .str text => some text
  | .arr _ => none
  | .obj _ => none
  | json => serde.plainText json

def readToken (json : Json) : Option SharedServiceToken := do
  asObject json
  let unset : SharedServiceToken := {}
  let id ← field serde.readText unset.id json "id"
  let name ← field serde.readText unset.name json "name"
  let token ← field serde.readText unset.token json "token"
  let tokenHash ← field serde.readText unset.tokenHash json "tokenHash"
  let scopes ← field (readList serde.readText) unset.scopes json "scopes"
  let expiresAt ← field (readOption serde.readText) none json "expiresAt"
  let createdAt ← field (readOption serde.readText) none json "createdAt"
  let lastUsedAt ← field (readOption serde.readText) none json "lastUsedAt"
  let issuerId ← field (readOption serde.readText) none json "issuerId"
  let enabled ← field readBool unset.enabled json "enabled"
  let fixedPort ← field (readOption readU16) none json "fixedPort"
  let priority ← field readU16 unset.priority json "priority"
  let limits ← field readLimits unset.limits json "limits"
  return { id, name, token, tokenHash, scopes, expiresAt, createdAt, lastUsedAt, issuerId, enabled,
           fixedPort, priority, limits }

def readSharedService (json : Json) : Option SharedServiceConfig := do
  asObject json
  let shared : SharedServiceConfig := {}
  let enabled ← field readBool shared.enabled json "enabled"
  let controlBind ← field serde.readText shared.controlBind json "controlBind"
  let publicBind ← field serde.readText shared.publicBind json "publicBind"
  let publicHost ← field serde.readText shared.publicHost json "publicHost"
  let portRange ← field readPortRange shared.portRange json "portRange"
  let serverSalt ← field serde.readText shared.serverSalt json "serverSalt"
  let authTokens ← field (readList serde.readText) shared.authTokens json "authTokens"
  let allowAnonymous ← field readBool shared.allowAnonymous json "allowAnonymous"
  let queue ← field readQueue shared.queue json "queue"
  let tokens ← field (readList (readToken serde)) shared.tokens json "tokens"
  let defaults ← field readLimits shared.defaults json "defaults"
  let maximums ← field readLimits shared.maximums json "maximums"
  return { enabled, controlBind, publicBind, publicHost, portRange, serverSalt, authTokens,
           allowAnonymous, queue, tokens, defaults, maximums }

end Readers

/-! ## What is taken -/

def IsLimits (json : Json) : Prop :=
  IsObject json ∧ Fits [("maxBytesPerSecond", IsU64), ("idleTimeoutSeconds", IsU64),
    ("udpSessionTimeoutSeconds", IsU64)] json

def IsQueue (json : Json) : Prop :=
  IsObject json ∧ Fits [("enabled", IsBoolean), ("maxSize", IsU64)] json

@[simp]
theorem reads_limits : Reads readLimits = IsLimits := by
  refine reads_eq (fun json => isSome_bind isSome_asObject (fun _ => ?_))
  iterate 3 refine isSome_field_bind (by simp) (fun _ => ?_)
  exact isSome_pure_fits

@[simp]
theorem reads_queue : Reads readQueue = IsQueue := by
  refine reads_eq (fun json => isSome_bind isSome_asObject (fun _ => ?_))
  iterate 2 refine isSome_field_bind (by simp) (fun _ => ?_)
  exact isSome_pure_fits

section Shapes

variable (serde : Serde)

theorem reads_token {json : Json} : Reads (readToken serde) json ↔
    IsObject json ∧ Fits [("id", Reads serde.readText), ("name", Reads serde.readText),
      ("token", Reads serde.readText), ("tokenHash", Reads serde.readText),
      ("scopes", IsArrayOf (Reads serde.readText)), ("expiresAt", NullOr (Reads serde.readText)),
      ("createdAt", NullOr (Reads serde.readText)), ("lastUsedAt", NullOr (Reads serde.readText)),
      ("issuerId", NullOr (Reads serde.readText)), ("enabled", IsBoolean),
      ("fixedPort", NullOr IsU16), ("priority", IsU16), ("limits", IsLimits)] json := by
  refine isSome_bind isSome_asObject (fun _ => ?_)
  iterate 13 refine isSome_field_bind (by simp) (fun _ => ?_)
  exact isSome_pure_fits

theorem reads_portRange {json : Json} : Reads readPortRange json ↔
    IsObject json ∧ Fits [("start", IsU16), ("end", IsU16)] json := by
  refine isSome_bind isSome_asObject (fun _ => ?_)
  iterate 2 refine isSome_field_bind (by simp) (fun _ => ?_)
  exact isSome_pure_fits

theorem reads_sharedService {json : Json} : Reads (readSharedService serde) json ↔
    IsObject json ∧ Fits [("enabled", IsBoolean), ("controlBind", Reads serde.readText),
      ("publicBind", Reads serde.readText), ("publicHost", Reads serde.readText),
      ("portRange", Reads readPortRange), ("serverSalt", Reads serde.readText),
      ("authTokens", IsArrayOf (Reads serde.readText)), ("allowAnonymous", IsBoolean),
      ("queue", IsQueue), ("tokens", IsArrayOf (Reads (readToken serde))),
      ("defaults", IsLimits), ("maximums", IsLimits)] json := by
  refine isSome_bind isSome_asObject (fun _ => ?_)
  iterate 12 refine isSome_field_bind (by simp) (fun _ => ?_)
  exact isSome_pure_fits

end Shapes

end FerrumProxy
