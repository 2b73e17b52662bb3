import FerrumProxy.CertificateEntitlement

/-!
# What the credential store always satisfies

Credentials and certificate sources are two lists of one file.  Issuing, revoking, registering and
removing change them one at a time, and each of these can fail: on its input, on the file, or at any
step of the save.  Nothing is assumed about collisions of SHA-256.
-/

namespace FerrumProxy

open Str Wire

/-! ### Saving through a temporary file -/

/-- The step of a save that fails. -/
inductive SaveFault (Document : Type) where
  | open
  /-- With what has been written until then. -/
  | write (written : Document)
  | sync
  | rename

/-- The file of the store and the temporary file of a save. -/
structure SaveFiles (Document : Type) where
  file : Option Document
  temporary : Option Document

namespace Store

variable {Document : Type} (json : SerdeJson Document)

/-- The closure of `save`: the files afterwards, and whether every step succeeded. -/
def writeTemporary (fault : Option (SaveFault Document)) (serialized : Document)
    (files : SaveFiles Document) : SaveFiles Document × Bool :=
  match files.temporary, fault with
  -- `create_new` refuses a file that exists.
  | some _, _ => (files, false)
  | none, some .open => (files, false)
  | none, some (.write written) => ({ files with temporary := some written }, false)
  | none, some .sync => ({ files with temporary := some serialized }, false)
  | none, some .rename => ({ files with temporary := some serialized }, false)
  | none, none => ({ file := some serialized, temporary := none }, true)

/-- `save`, step by step; `removed` tells whether a temporary file that is left over
can be removed. -/
def saveThrough (fault : Option (SaveFault Document)) (removed : Bool) (data : SecretsData)
    (files : SaveFiles Document) : SaveFiles Document × Except String Unit :=
  match json.toVecPretty data with
  | .error message => (files, .error message)
  | .ok serialized =>
    if fileLimit < json.size serialized then
      (files, .error "Manager state exceeds 256 KiB; remove unused credentials or sources")
    else
      match writeTemporary fault serialized files with
      | (written, true) => (written, .ok ())
      | (written, false) =>
        ({ written with temporary := if removed then none else written.temporary },
          .error "Cannot save manager state")

/-- The closure fails with the file as it was, or replaces it. -/
theorem writeTemporary_cases (fault : Option (SaveFault Document)) (serialized : Document)
    (files : SaveFiles Document) :
    (∃ temporary, writeTemporary fault serialized files = (⟨files.file, temporary⟩, false)) ∨
      (fault = none ∧ files.temporary = none ∧
        writeTemporary fault serialized files = (⟨some serialized, none⟩, true)) := by
  obtain ⟨file, temporary⟩ := files
  cases temporary with
  | some _ => exact .inl ⟨_, rfl⟩
  | none =>
    cases fault with
    | none => exact .inr ⟨rfl, rfl, rfl⟩
    | some fault => cases fault <;> exact .inl ⟨_, rfl⟩

/-- **The save in one step.**  Whatever fails on the way, the file of the store is
replaced as a whole or not at all. -/
theorem saveThrough_file (json : SerdeJson Document) (fault : Option (SaveFault Document))
    (removed : Bool) (data : SecretsData) (files : SaveFiles Document) :
    ∃ saveFails, save json { saveFails := saveFails } data files.file =
      ((saveThrough json fault removed data files).1.file,
        (saveThrough json fault removed data files).2) := by
  unfold saveThrough save
  cases json.toVecPretty data with
  | error message => exact ⟨false, rfl⟩
  | ok serialized =>
    by_cases hsize : fileLimit < json.size serialized
    · exact ⟨false, by simp [hsize]⟩
    · rcases writeTemporary_cases fault serialized files with ⟨temporary, hfailed⟩ | ⟨-, -, hdone⟩
      · exact ⟨true, by simp [hsize, hfailed]⟩
      · exact ⟨false, by simp [hsize, hdone]⟩

/-- A save fails and leaves the file of the store, or what it has written is read back. -/
theorem saveThrough_cases (json : SerdeJson Document) (fault : Option (SaveFault Document))
    (removed : Bool) (data : SecretsData) (files : SaveFiles Document) :
    (∃ message, (saveThrough json fault removed data files).2 = .error message ∧
      (saveThrough json fault removed data files).1.file = files.file) ∨
    ((saveThrough json fault removed data files).2 = .ok () ∧
      load json {} (saveThrough json fault removed data files).1.file = .ok data) := by
  obtain ⟨saveFails, hsave⟩ := saveThrough_file json fault removed data files
  rcases save_cases json { saveFails := saveFails } data files.file with ⟨message, hfailed⟩ |
    ⟨saved, hdone, hload⟩
  · obtain ⟨hfile, houtcome⟩ := Prod.mk.inj (hsave.symm.trans hfailed)
    exact .inl ⟨message, houtcome, hfile⟩
  · obtain ⟨hfile, houtcome⟩ := Prod.mk.inj (hsave.symm.trans hdone)
    exact .inr ⟨houtcome, hfile ▸ hload⟩

end Store

open Store

/-! ### Operations and their log -/

/-- The changing operations. -/
inductive SecretsOperation where
  | issue (name : Text) (scopes : List Text) (expiresIn : Option Int) (draw : IssueDraw)
  | revoke (id : Text)
  | register (source : CertificateSource) (files : CertificateFiles)
  | removeSource (id : Text)

/-- What has succeeded. -/
inductive SecretsEvent where
  | issued (answer : IssuedCredential)
  | revoked (id : Text)
  | registered (source : CertificateSource)
  | removed (id : Text)

/-- The store's file, and the log of what has succeeded, which the code does not keep. -/
structure SecretsRun (Document : Type) where
  file : Option Document
  log : List SecretsEvent

namespace SecretsRun

variable {Document : Type} (sha : Sha256) (json : SerdeJson Document)

/-- The file afterwards, and the outcome.  A registration is checked before the lock
is taken. -/
def perform (disk : StoreDisk) (file : Option Document) :
    SecretsOperation → Option Document × Except String SecretsEvent
  | .issue name scopes expiresIn draw =>
    update json (fun data => do
      let (changed, answer) ← data.issueWith sha name scopes expiresIn draw
      return (changed, .issued answer)) disk file
  | .revoke id => update json (fun data => .ok (data.revoke id, .revoked id)) disk file
  | .register source files =>
    match source.prepare sha files with
    | .error message => (file, .error message)
    | .ok (prepared, _) =>
      update json (fun data => .ok (data.register prepared, .registered prepared))
        disk file
  | .removeSource id =>
    update json (fun data => .ok (data.removeSource id, .removed id)) disk file

def step (s : SecretsRun Document) (action : SecretsOperation × StoreDisk) :
    Option (SecretsRun Document) :=
  match perform sha json action.2 s.file action.1 with
  | (file, .error _) => some { s with file := file }
  | (file, .ok event) => some ⟨file, s.log ++ [event]⟩

end SecretsRun

open SecretsRun

/-- The changes of the data, with their events. -/
inductive SecretsChange (sha : Sha256) (data : SecretsData) : SecretsData → SecretsEvent → Prop
  | issued {name : Text} {scopes : List Text} {expiresIn : Option Int} {draw : IssueDraw}
      {changed : SecretsData} {answer : IssuedCredential}
      (hissue : data.issueWith sha name scopes expiresIn draw = .ok (changed, answer)) :
      SecretsChange sha data changed (.issued answer)
  | revoked (id : Text) : SecretsChange sha data (data.revoke id) (.revoked id)
  | registered (source : CertificateSource) :
      SecretsChange sha data (data.register source) (.registered source)
  | removed (id : Text) : SecretsChange sha data (data.removeSource id) (.removed id)

namespace SecretsRun

variable {Document : Type} {sha : Sha256} {json : SerdeJson Document}

theorem update_change {edit : SecretsData → Except String (SecretsData × SecretsEvent)}
    {disk : StoreDisk} {file : Option Document}
    (hedit : ∀ changed event, edit (stored json file) = .ok (changed, event) →
      SecretsChange sha (stored json file) changed event) :
    (∃ message, update json edit disk file = (file, .error message)) ∨
      ∃ saved event, update json edit disk file = (saved, .ok event) ∧
        SecretsChange sha (stored json file) (stored json saved) event := by
  rcases update_cases edit disk file with hfailed | ⟨changed, event, saved, hok, hupdate, hstored⟩
  · exact .inl hfailed
  · exact .inr ⟨saved, event, hupdate, hstored ▸ hedit changed event hok⟩

/-- **Everything an operation can do**: it fails and leaves the file, or it makes one
of the four changes. -/
theorem perform_cases (sha : Sha256) (json : SerdeJson Document) (disk : StoreDisk)
    (file : Option Document) (operation : SecretsOperation) :
    (∃ message, perform sha json disk file operation = (file, .error message)) ∨
      ∃ saved event, perform sha json disk file operation = (saved, .ok event) ∧
        SecretsChange sha (stored json file) (stored json saved) event := by
  cases operation with
  | issue name scopes expiresIn draw =>
    refine update_change (fun changed event hissue => ?_)
    obtain ⟨_, hanswer, hreturn⟩ := bind_eq_ok.mp hissue
    cases hreturn
    exact .issued hanswer
  | revoke id =>
    rw [perform]
    refine update_change (fun _ _ hrevoke => ?_)
    cases hrevoke
    exact .revoked id
  | register source files =>
    cases hprepare : source.prepare sha files with
    | error message => exact .inl ⟨message, by rw [perform, hprepare]⟩
    | ok prepared =>
      rw [perform, hprepare]
      refine update_change (fun _ _ hregister => ?_)
      cases hregister
      exact .registered prepared.1
  | removeSource id =>
    rw [perform]
    refine update_change (fun _ _ hremove => ?_)
    cases hremove
    exact .removed id

/-- A step changes nothing or makes one of the changes. -/
theorem step_cases {s t : SecretsRun Document} {action : SecretsOperation × StoreDisk}
    (h : step sha json s action = some t) :
    t = s ∨ ∃ event, t.log = s.log ++ [event] ∧
      SecretsChange sha (stored json s.file) (stored json t.file) event := by
  rcases perform_cases sha json action.2 s.file action.1 with
    ⟨message, hfailed⟩ | ⟨saved, event, hdone, hchange⟩
  · rw [step, hfailed] at h
    cases h
    exact .inl rfl
  · rw [step, hdone] at h
    cases h
    exact .inr ⟨event, rfl, hchange⟩

end SecretsRun

/-! ### The invariant -/

/-- The stored credential is the one that the answer told of; since then it has at most
lost scopes, and neither it nor a certificate that it still names has been taken away. -/
structure Credential.Outstanding (sha : Sha256) (salt : Text) (log : List SecretsEvent)
    (item : Credential) (answer : IssuedCredential) (after : List SecretsEvent) : Prop where
  issued : ∃ before, log = before ++ .issued answer :: after
  id_eq : item.id = answer.id
  expiresAt_eq : item.expiresAt = answer.expiresAt
  tokenHash_eq : item.tokenHash = sha.hashToken answer.token salt
  scopes_subset : item.scopes ⊆ answer.scopes
  unrevoked : .revoked answer.id ∉ after
  unremoved : ∀ id, certificateScope id ∈ item.scopes → .removed id ∉ after

/-- The data and the log of what has succeeded. -/
structure SecretsData.Consistent (sha : Sha256) (log : List SecretsEvent) (data : SecretsData) :
    Prop where
  registered : ∀ item ∈ data.credentials, ∀ id, certificateScope id ∈ item.scopes →
    ∃ source ∈ data.certificates, source.id = id
  distinct : (data.certificates.map (·.id)).Nodup
  salted : data.salt ≠ [] ∨ data.credentials = []
  outstanding : ∀ item ∈ data.credentials, ∃ answer after,
    item.Outstanding sha data.salt log answer after

namespace Credential.Outstanding

variable {sha : Sha256} {salt : Text} {log after : List SecretsEvent} {old item : Credential}
  {answer : IssuedCredential} {event : SecretsEvent}

/-- A credential stays outstanding when it keeps all but some scopes and the event
takes nothing else of it away. -/
theorem concat (h : old.Outstanding sha salt log answer after)
    (hkept : { item with scopes := old.scopes } = old)
    (hscopes : ∀ scope ∈ item.scopes, scope ∈ old.scopes) (hrevoked : event ≠ .revoked item.id)
    (hremoved : ∀ id, certificateScope id ∈ item.scopes → event ≠ .removed id) :
    item.Outstanding sha salt (log ++ [event]) answer (after ++ [event]) := by
  have hid : item.id = old.id := by rw [← hkept]
  refine ⟨?_, hid.trans h.id_eq, ?_, ?_, fun scope hscope => h.scopes_subset (hscopes scope hscope),
    ?_, fun id hmem => ?_⟩
  · obtain ⟨before, hlog⟩ := h.issued
    exact ⟨before, by simp [hlog]⟩
  · rw [← h.expiresAt_eq, ← hkept]
  · rw [← h.tokenHash_eq, ← hkept]
  · rw [hid, h.id_eq] at hrevoked
    simpa [h.unrevoked] using hrevoked.symm
  · simpa [h.unremoved id (hscopes _ hmem)] using (hremoved id hmem).symm

end Credential.Outstanding

open List

namespace SecretsData.Consistent

variable {sha : Sha256} {log : List SecretsEvent} {data changed : SecretsData}

/-- A store without credentials and sources. -/
theorem of_empty (hcredentials : data.credentials = []) (hcertificates : data.certificates = []) :
    Consistent sha [] data where
  registered _ h := absurd h (hcredentials ▸ not_mem_nil)
  distinct := by simp [hcertificates]
  salted := .inr hcredentials
  outstanding _ h := absurd h (hcredentials ▸ not_mem_nil)

section

variable (h : Consistent sha log data)

include h

/-- A revoked credential is gone. -/
theorem revoke (id : Text) : Consistent sha (log ++ [.revoked id]) (data.revoke id) where
  registered item hitem := h.registered item (mem_of_mem_filter hitem)
  distinct := h.distinct
  salted := h.salted.imp_right (fun hnone => by simp [SecretsData.revoke, hnone])
  outstanding item hitem := by
    obtain ⟨hold, hne⟩ := mem_filter.mp hitem
    obtain ⟨answer, after, houtstanding⟩ := h.outstanding item hold
    refine ⟨answer, _, houtstanding.concat rfl (fun _ hscope => hscope) ?_ (fun _ _ => nofun)⟩
    intro hevent
    cases hevent
    simp at hne

/-- A registration replaces the source of its id. -/
theorem register (source : CertificateSource) :
    Consistent sha (log ++ [.registered source]) (data.register source) where
  registered item hitem id hscope := by
    obtain ⟨old, hold, hid⟩ := h.registered item hitem id hscope
    by_cases hsame : old.id = source.id
    · exact ⟨source, by simp [SecretsData.register], hsame ▸ hid⟩
    · exact ⟨old, by simp [SecretsData.register, hold, hsame], hid⟩
  distinct := by
    have hkept : ((data.certificates.filter (fun item => !(item.id == source.id))).map
        (·.id)).Nodup := h.distinct.sublist (filter_sublist.map _)
    have hnew : source.id ∉ (data.certificates.filter (fun item => !(item.id == source.id))).map
        (·.id) := by simp
    rw [SecretsData.register, map_append, map_singleton, ← concat_eq_append]
    exact (nodup_concat _ _).mpr ⟨hnew, hkept⟩
  salted := h.salted
  outstanding item hitem := by
    obtain ⟨answer, after, houtstanding⟩ := h.outstanding item hitem
    exact ⟨answer, _, houtstanding.concat rfl (fun _ hscope => hscope) nofun (fun _ _ => nofun)⟩

/-- The scopes of a removed source go with it, so the ones that stay name other sources. -/
theorem removeSource (id : Text) :
    Consistent sha (log ++ [.removed id]) (data.removeSource id) where
  registered item hitem other hscope := by
    obtain ⟨old, hold, rfl⟩ := List.mem_map.mp hitem
    obtain ⟨hmem, hne⟩ := mem_filter.mp hscope
    obtain ⟨source, hsource, rfl⟩ := h.registered old hold other hmem
    refine ⟨source, mem_filter.mpr ⟨hsource, ?_⟩, rfl⟩
    have hid : source.id ≠ id := fun heq => by simp [heq] at hne
    simpa using hid
  distinct := h.distinct.sublist (filter_sublist.map _)
  salted := h.salted.imp_right (fun hnone => by simp [SecretsData.removeSource, hnone])
  outstanding item hitem := by
    obtain ⟨old, hold, rfl⟩ := List.mem_map.mp hitem
    obtain ⟨answer, after, houtstanding⟩ := h.outstanding old hold
    refine ⟨answer, _, houtstanding.concat rfl (fun _ => mem_of_mem_filter) nofun ?_⟩
    intro other hscope hevent
    cases hevent
    simpa using (mem_filter.mp hscope).2

theorem saltOr_eq {fresh : Text} {item : Credential} (hitem : item ∈ data.credentials) :
    data.saltOr fresh = data.salt := by
  rcases h.salted with hsalt | hnone
  · simp [SecretsData.saltOr, hsalt]
  · exact absurd hitem (hnone ▸ not_mem_nil)

/-- A new credential names registered sources. -/
theorem issue {name : Text} {scopes : List Text} {expiresIn : Option Int} {draw : IssueDraw}
    {answer : IssuedCredential}
    (hissue : data.issueWith sha name scopes expiresIn draw = .ok (changed, answer)) :
    Consistent sha (log ++ [.issued answer]) changed := by
  obtain ⟨_, _, hissue⟩ := bind_eq_ok.mp hissue
  obtain ⟨_, _, hissue⟩ := bind_eq_ok.mp hissue
  obtain ⟨_, hchecked, hissue⟩ := bind_eq_ok.mp hissue
  obtain ⟨expiresAt, _, hissue⟩ := bind_eq_ok.mp hissue
  cases hissue
  refine ⟨fun item hitem id hscope => ?_, h.distinct, .inl ?_, fun item hitem => ?_⟩
  · rcases mem_append.mp hitem with hold | hnew
    · exact h.registered item hold id hscope
    · rw [mem_singleton.mp hnew] at hscope
      exact registered_of_checkScope (forM_eq_ok.mp hchecked _ hscope)
  · by_cases hempty : data.salt = []
    · simpa [SecretsData.saltOr, hempty] using draw.salt_ne
    · simp [SecretsData.saltOr, hempty]
  · rcases mem_append.mp hitem with hold | hnew
    · obtain ⟨earlier, after, houtstanding⟩ := h.outstanding item hold
      rw [← h.saltOr_eq hold] at houtstanding
      exact ⟨earlier, _, houtstanding.concat rfl (fun _ hscope => hscope) (by simp) (by simp)⟩
    · rw [mem_singleton.mp hnew]
      exact ⟨_, [], ⟨log, rfl⟩, rfl, rfl, rfl, fun _ hscope => hscope, not_mem_nil,
        fun _ _ => not_mem_nil⟩

/-- Every change keeps the data consistent. -/
theorem change {event : SecretsEvent} (hchange : SecretsChange sha data changed event) :
    Consistent sha (log ++ [event]) changed := by
  cases hchange with
  | issued hissue => exact h.issue hissue
  | revoked id => exact h.revoke id
  | registered source => exact h.register source
  | removed id => exact h.removeSource id

end

end SecretsData.Consistent

/-- The answer does not tell of an expiry that has passed. -/
def IssuedCredential.UnexpiredAt (parseRfc3339 : Text → Option UtcTime) (now : UtcTime)
    (answer : IssuedCredential) : Prop :=
  ∀ value, answer.expiresAt = some value → ∃ expiry, parseRfc3339 value = some expiry ∧ now < expiry

/-- The answer's token was issued with the scope of the certificate; the certificate has
not been removed since, nor the credential revoked. -/
def IssuedCredential.LastsIn (log : List SecretsEvent) (id : Text) (answer : IssuedCredential) :
    Prop :=
  ∃ before after, log = before ++ .issued answer :: after ∧
    certificateScope id ∈ answer.scopes ∧ .removed id ∉ after ∧ .revoked answer.id ∉ after

/-- The check of the expiry looks at what was answered. -/
theorem Credential.unexpired_iff {parseRfc3339 : Text → Option UtcTime} {now : UtcTime}
    {item : Credential} {answer : IssuedCredential} (hexpiry : item.expiresAt = answer.expiresAt) :
    item.unexpired parseRfc3339 now = true ↔ answer.UnexpiredAt parseRfc3339 now := by
  unfold Credential.unexpired IssuedCredential.UnexpiredAt
  rw [hexpiry]
  cases answer.expiresAt with
  | none => simp
  | some value => simp [Option.any_eq_true]

/-- **What `permits` accepts has been issued and not been taken away.** -/
theorem SecretsData.Consistent.lasts_of_permits {sha : Sha256} {log : List SecretsEvent}
    {data : SecretsData} {parseRfc3339 : Text → Option UtcTime} {now : UtcTime} {token id : Text}
    (h : Consistent sha log data)
    (hpermits : data.permitsWith sha parseRfc3339 now token (certificateScope id) = true) :
    ∃ answer : IssuedCredential, answer.LastsIn log id ∧ answer.UnexpiredAt parseRfc3339 now ∧
      sha.tokensEqual (sha.hashToken answer.token data.salt) (sha.hashToken token data.salt) =
        true := by
  obtain ⟨item, hitem, hequal, hscope, hunexpired⟩ := SecretsData.permitsWith_iff.mp hpermits
  obtain ⟨answer, after, houtstanding⟩ := h.outstanding item hitem
  obtain ⟨before, hlog⟩ := houtstanding.issued
  refine ⟨answer, ⟨before, after, hlog, houtstanding.scopes_subset hscope,
    houtstanding.unremoved id hscope, houtstanding.unrevoked⟩, ?_, ?_⟩
  · exact (Credential.unexpired_iff houtstanding.expiresAt_eq).mp hunexpired
  · rwa [houtstanding.tokenHash_eq] at hequal

def SecretsRun.Consistent {Document : Type} (sha : Sha256) (json : SerdeJson Document)
    (s : SecretsRun Document) : Prop :=
  (stored json s.file).Consistent sha s.log

/-- Every step keeps the store consistent. -/
theorem SecretsRun.Consistent.step {Document : Type} {sha : Sha256} {json : SerdeJson Document}
    {s t : SecretsRun Document} {action : SecretsOperation × StoreDisk}
    (h : s.Consistent sha json) (hstep : step sha json s action = some t) :
    t.Consistent sha json := by
  rcases step_cases hstep with rfl | ⟨event, hlog, hchange⟩
  · exact h
  · rw [Consistent, hlog]
    exact SecretsData.Consistent.change h hchange

/-- **The store's invariant.**  In every state reached from an empty store the
certificate scopes name registered sources, the ids of the sources are distinct, and a
permitted token was issued for the certificate after its last removal and has been
neither revoked nor expired.  A failed operation leaves the file, at whichever step of
the save it fails, and what is saved is read back. -/
theorem store_invariant_of_reaches {Document : Type} (sha : Sha256) (json : SerdeJson Document)
    (parseRfc3339 : Text → Option UtcTime) {file : Option Document} {s : SecretsRun Document}
    (hcredentials : (stored json file).credentials = [])
    (hcertificates : (stored json file).certificates = [])
    (hreach : Runs.Reaches (step sha json) Runs.Always ⟨file, []⟩ s) :
    (∀ item ∈ (stored json s.file).credentials, ∀ id,
      certificateScope id ∈ item.scopes →
        ∃ source ∈ (stored json s.file).certificates, source.id = id) ∧
    ((stored json s.file).certificates.map (·.id)).Nodup ∧
    (∀ disk now token id data, load json disk s.file = .ok data →
      data.permitsWith sha parseRfc3339 now token (certificateScope id) = true →
        ∃ answer : IssuedCredential, answer.LastsIn s.log id ∧
          answer.UnexpiredAt parseRfc3339 now ∧
          sha.tokensEqual (sha.hashToken answer.token data.salt)
            (sha.hashToken token data.salt) = true) ∧
    (∀ disk operation message,
      (perform sha json disk s.file operation).2 = .error message →
        (perform sha json disk s.file operation).1 = s.file) ∧
    (∀ fault removed data files message,
      (saveThrough json fault removed data files).2 = .error message →
        (saveThrough json fault removed data files).1.file = files.file) ∧
    ∀ fault removed data files,
      (saveThrough json fault removed data files).2 = .ok () →
        load json {} (saveThrough json fault removed data files).1.file = .ok data := by
  have hconsistent : s.Consistent sha json :=
    hreach.invariant (.of_empty hcredentials hcertificates) (fun _ _ _ h _ hstep => h.step hstep)
  refine ⟨hconsistent.registered, hconsistent.distinct, fun disk now token id data hload hpermits =>
    ?_, fun disk operation message hfailed => ?_, fun fault removed data files message hfailed => ?_,
    fun fault removed data files hdone => ?_⟩
  · rw [Consistent, stored_of_load hload] at hconsistent
    exact hconsistent.lasts_of_permits hpermits
  · rcases perform_cases sha json disk s.file operation with ⟨_, hsame⟩ |
      ⟨_, _, hdone, -⟩
    · rw [hsame]
    · rw [hdone] at hfailed
      cases hfailed
  · rcases saveThrough_cases json fault removed data files with ⟨_, -, hsame⟩ | ⟨hdone, -⟩
    · exact hsame
    · cases hdone.symm.trans hfailed
  · rcases saveThrough_cases json fault removed data files with ⟨_, hfailed, -⟩ | ⟨-, hload⟩
    · cases hdone.symm.trans hfailed
    · exact hload

/-- A source is registered, a credential is issued for it, and a removal fails. -/
def issuedForSource : List (SecretsOperation × StoreDisk) :=
  [(.register firstSource sampleFiles, {}),
    (.issue "game".toList [certificateScope "play".toList] none sampleDraw.toIssueDraw, {}),
    (.removeSource "play".toList, { saveFails := true })]

/-- A removal that fails takes nothing from the credential. -/
theorem store_invariant_of_reaches_issued :
    (Runs.run (step firstBytes plainJson) ⟨none, []⟩ issuedForSource).map (fun s =>
      (stored plainJson s.file).permitsWith firstBytes (fun _ => none) 0 "fpc_1".toList
        (certificateScope "play".toList)) = some true ∧
    ∀ s, Runs.run (step firstBytes plainJson) ⟨none, []⟩ issuedForSource = some s →
      ((stored plainJson s.file).certificates.map (·.id)).Nodup := by
  refine ⟨by decide +kernel, fun s hrun => ?_⟩
  exact (store_invariant_of_reaches firstBytes plainJson (fun _ => none) rfl rfl
    (Runs.reaches_of_run hrun)).2.1

end FerrumProxy
