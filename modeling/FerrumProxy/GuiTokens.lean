import FerrumProxy.ConfigReading
import FerrumProxy.GuiSanitize
import FerrumProxy.RelayAuth

/-!
# Tokens that the GUI writes

A write of the GUI sanitises the shared service: `WrittenToken` and `WrittenShared` are what it
leaves of a token and of the service.
-/

namespace FerrumProxy

open Str Js Wire

/-! ## One token -/

variable {t token written shared json config sanitized : Json} {node : NodeEnv}
  {result value : Value} {items : List Json} {before after : SharedServiceConfig}

/-- A text is kept unless it is blank, what counts as false is dropped, and anything else
throws. -/
theorem keepsToken_cases (hne : t ≠ .null) :
    (∃ text, t.get "token" = some (.str text) ∧ keepsToken t = .ok (!(Js.trim text).isEmpty)) ∨
      ((∀ text, t.get "token" ≠ some (.str text)) ∧
        (truthy (t.get "token") = false ∧ keepsToken t = .ok false ∨
          truthy (t.get "token") = true ∧ keepsToken t = .error ⟨⟩)) := by
  have hkeeps : keepsToken t = if truthy (t.get "token") then
      callTrim (t.get "token") >>= fun text => pure (!text.isEmpty) else pure false := by
    rw [keepsToken, prop_of_ne_null hne]
    rfl
  by_cases htext : ∃ text, t.get "token" = some (.str text)
  · obtain ⟨text, htoken⟩ := htext
    refine .inl ⟨text, htoken, ?_⟩
    rw [hkeeps, htoken]
    cases text <;> rfl
  · rw [not_exists] at htext
    refine .inr ⟨htext, ?_⟩
    rw [hkeeps]
    cases htruthy : truthy (t.get "token") with
    | false => exact .inl ⟨rfl, rfl⟩
    | true =>
      rw [if_pos rfl, callTrim_of_ne_str htext]
      exact .inr ⟨rfl, rfl⟩

theorem exists_keepsToken (hne : t ≠ .null) :
    (∃ value, keepsToken t = .ok value) ↔
      ∀ json, t.get "token" = some json → truthy (some json) = true → IsText json := by
  rcases keepsToken_cases hne with ⟨text, htoken, hkeeps⟩ | ⟨hne, ⟨hfalse, hkeeps⟩ | ⟨htrue, hkeeps⟩⟩
  · refine iff_of_true ⟨_, hkeeps⟩ (fun json hjson _ => ?_)
    rw [htoken] at hjson
    exact ⟨text, (Option.some.inj hjson).symm⟩
  · refine iff_of_true ⟨_, hkeeps⟩ (fun json hjson htruthy => ?_)
    rw [← hjson, hfalse] at htruthy
    cases htruthy
  · refine iff_of_false (fun ⟨value, hvalue⟩ => ?_) (fun hall => ?_)
    · rw [hkeeps] at hvalue
      cases hvalue
    · cases htoken : t.get "token" with
      | none =>
        rw [htoken] at htrue
        cases htrue
      | some json =>
        obtain ⟨text, rfl⟩ := hall json htoken (htoken ▸ htrue)
        exact hne text htoken

theorem holds_keepsToken (hne : t ≠ .null) :
    holds (keepsToken t) = true ↔
      ∃ text, t.get "token" = some (.str text) ∧ Js.trim text ≠ [] := by
  rcases keepsToken_cases hne with ⟨text, htoken, hkeeps⟩ | ⟨hne, ⟨_, hkeeps⟩ | ⟨_, hkeeps⟩⟩
  · rw [hkeeps]
    simp [htoken, holds]
  all_goals
    rw [hkeeps]
    exact iff_of_false Bool.false_ne_true (fun ⟨text, htext, _⟩ => hne text htext)

/-- What is written of a token that is kept. -/
structure WrittenToken (token written : Json) : Prop where
  object : IsObject written
  same : ∀ key, key ∉ ["token", "name"] → written.get key = token.get key
  text : ∃ text, token.get "token" = some (.str text) ∧
    written.get "token" = some (.str (Js.trim text))
  name : Optional (NullOr IsText) (token.get "name") ∧ Optional IsText (written.get "name")

/-- What is written for a token. -/
theorem sanitizeToken_eq_ok (h : sanitizeToken token = .ok written) :
    WrittenToken token written := by
  obtain ⟨value, hvalue, h⟩ := bind_eq_ok.mp h
  obtain ⟨hne, rfl⟩ := prop_eq_ok.mp hvalue
  obtain ⟨trimmedText, htrim, h⟩ := bind_eq_ok.mp h
  obtain ⟨nameValue, hnameValue, h⟩ := bind_eq_ok.mp h
  obtain ⟨_, rfl⟩ := prop_eq_ok.mp hnameValue
  obtain ⟨name, hname, h⟩ := bind_eq_ok.mp h
  obtain rfl := Except.ok.inj h
  obtain ⟨text, htext, rfl⟩ := callTrim_eq_ok htrim
  refine ⟨⟨_, rfl⟩, fun key hkey => get_withProps_of_notMem (by simpa using hkey) token,
    ⟨text, htext, get_withProps_of_mem (by simp) (by simp) token⟩, (trimmed_eq_ok hname).1, ?_⟩
  rw [get_withProps_of_mem (by simp) (by simp : ("name", name) ∈ _)]
  exact (trimmed_eq_ok hname).2

/-! ## The shared service -/

/-- The properties of the shared service that are sanitised. -/
def sharedKeys : List String :=
  ["controlBind", "publicBind", "publicHost", "tokens", "authTokens", "portRange"]

/-- What is written of the shared service. -/
structure WrittenShared (node : NodeEnv) (shared written : Json) : Prop where
  object : IsObject written
  same : ∀ key, key ∉ sharedKeys → written.get key = shared.get key
  controlBind : trimIfSet (shared.get "controlBind") = .ok (written.get "controlBind")
  publicBind : trimIfSet (shared.get "publicBind") = .ok (written.get "publicBind")
  publicHost : trimIfSet (shared.get "publicHost") = .ok (written.get "publicHost")
  tokens : sanitizeTokens (shared.get "tokens") = .ok (written.get "tokens")
  authTokens : sanitizeAuthTokens (shared.get "authTokens") = .ok (written.get "authTokens")
  portRange : written.get "portRange" = sanitizePortRange node (shared.get "portRange")

/-- What is written for the shared service. -/
theorem sanitizeSharedService_eq_ok (htruthy : truthy (some shared) = true)
    (h : sanitizeSharedService node (some shared) = .ok result) :
    ∃ written, result = some written ∧ WrittenShared node shared written := by
  simp only [sanitizeSharedService, htruthy, if_true] at h
  obtain ⟨controlBind, hcontrol, h⟩ := bind_eq_ok.mp h
  obtain ⟨publicBind, hpublic, h⟩ := bind_eq_ok.mp h
  obtain ⟨publicHost, hhost, h⟩ := bind_eq_ok.mp h
  obtain ⟨tokens, htokens, h⟩ := bind_eq_ok.mp h
  obtain ⟨authTokens, hauth, h⟩ := bind_eq_ok.mp h
  obtain rfl := Except.ok.inj h
  exact ⟨_, rfl, ⟨_, rfl⟩,
    fun key hkey => get_withProps_of_notMem (by simpa [sharedKeys] using hkey) shared,
    hcontrol.trans (congrArg _ (get_withProps_of_mem (by simp) (by simp) shared).symm),
    hpublic.trans (congrArg _ (get_withProps_of_mem (by simp) (by simp) shared).symm),
    hhost.trans (congrArg _ (get_withProps_of_mem (by simp) (by simp) shared).symm),
    htokens.trans (congrArg _ (get_withProps_of_mem (by simp) (by simp) shared).symm),
    hauth.trans (congrArg _ (get_withProps_of_mem (by simp) (by simp) shared).symm),
    get_withProps_of_mem (by simp) (by simp) shared⟩

open List Option

/-- What is written of the tokens: those that are kept, in their order. -/
theorem sanitizeTokens_arr :
    sanitizeTokens (some (.arr items)) = .ok result ↔
      (∀ token ∈ items, ∃ value, keepsToken token = .ok value) ∧
        ∃ mapped, result = some (.arr mapped) ∧
          Forall₂ (fun token written => sanitizeToken token = .ok written)
            (items.filter (fun token => holds (keepsToken token))) mapped := by
  have heq : sanitizeTokens (some (.arr items)) = filterItems keepsToken items >>= fun kept =>
      kept.mapM sanitizeToken >>= fun mapped => pure (some (Json.arr mapped)) := rfl
  rw [heq, bind_eq_ok]
  constructor
  · intro ⟨kept, hkept, h⟩
    obtain ⟨mapped, hmapped, hresult⟩ := bind_eq_ok.mp h
    obtain ⟨hall, rfl⟩ := filterItems_eq_ok.mp hkept
    exact ⟨hall, mapped, (Except.ok.inj hresult).symm, mapM_eq_ok.mp hmapped⟩
  · intro ⟨hall, mapped, hresult, hmapped⟩
    refine ⟨_, filterItems_eq_ok.mpr ⟨hall, rfl⟩, ?_⟩
    rw [mapM_eq_ok.mpr hmapped, hresult]
    rfl

theorem sanitizeTokens_isArray (items : List Json) (result : Value)
    (h : sanitizeTokens (some (.arr items)) = .ok result) : ∃ mapped, result = some (.arr mapped) := by
  obtain ⟨_, mapped, hresult, _⟩ := sanitizeTokens_arr.mp h
  exact ⟨mapped, hresult⟩

theorem holds_keepsAuthToken : holds (keepsAuthToken t) = true ↔
    ∃ text, t = .str text ∧ Js.trim text ≠ [] := by
  cases t with
  | str text => simp [keepsAuthToken, callTrim, bind, Except.bind, pure, Except.pure, holds]
  | _ => simp [keepsAuthToken, callTrim, bind, Except.bind, holds]

theorem exists_keepsAuthToken : (∃ value, keepsAuthToken t = .ok value) ↔ IsText t := by
  cases t with
  | str text => exact iff_of_true ⟨_, rfl⟩ ⟨text, rfl⟩
  | _ =>
    refine iff_of_false (fun ⟨value, hvalue⟩ => ?_) (fun ⟨text, htext⟩ => (nomatch htext))
    cases hvalue

/-- Of a list of texts the blank ones are left out. -/
theorem sanitizeAuthTokens_arr :
    sanitizeAuthTokens (some (.arr items)) = .ok result ↔
      (∀ token ∈ items, IsText token) ∧
        result = some (.arr (items.filter (fun token => holds (keepsAuthToken token)))) := by
  have heq : sanitizeAuthTokens (some (.arr items)) = filterItems keepsAuthToken items >>= fun kept =>
      pure (some (Json.arr kept)) := rfl
  simp only [heq, bind_eq_ok, filterItems_eq_ok, exists_keepsAuthToken]
  constructor
  · intro ⟨kept, ⟨hall, hkept⟩, hresult⟩
    rw [← hkept]
    exact ⟨hall, (Except.ok.inj hresult).symm⟩
  · intro ⟨hall, hresult⟩
    exact ⟨_, ⟨hall, rfl⟩, hresult ▸ rfl⟩

theorem sanitizeAuthTokens_isArray (items : List Json) (result : Value)
    (h : sanitizeAuthTokens (some (.arr items)) = .ok result) :
    ∃ kept, result = some (.arr kept) :=
  ⟨_, (sanitizeAuthTokens_arr.mp h).2⟩

/-! ## What the relay accepts -/

section Accepting

variable (serde : Serde)

/-- The fields of a token that decide whether it is accepted. -/
structure SharedServiceToken.ReadFrom (t : SharedServiceToken) (json : Json) : Prop where
  token : field serde.readText [] json "token" = some t.token
  tokenHash : field serde.readText [] json "tokenHash" = some t.tokenHash
  expiresAt : field (readOption serde.readText) none json "expiresAt" = some t.expiresAt
  enabled : field readBool true json "enabled" = some t.enabled

theorem readToken_eq_some {token : SharedServiceToken} (h : readToken serde json = some token) :
    token.ReadFrom serde json := by
  iterate 3 obtain ⟨_, _, h⟩ := bind_eq_some_iff.mp h
  obtain ⟨_, htoken, h⟩ := bind_eq_some_iff.mp h
  obtain ⟨_, hhash, h⟩ := bind_eq_some_iff.mp h
  obtain ⟨_, _, h⟩ := bind_eq_some_iff.mp h
  obtain ⟨_, hexpires, h⟩ := bind_eq_some_iff.mp h
  iterate 3 obtain ⟨_, _, h⟩ := bind_eq_some_iff.mp h
  obtain ⟨_, henabled, h⟩ := bind_eq_some_iff.mp h
  iterate 3 obtain ⟨_, _, h⟩ := bind_eq_some_iff.mp h
  obtain rfl := Option.some.inj h
  exact ⟨htoken, hhash, hexpires, henabled⟩

/-- The fields of the shared service that decide which tokens are accepted. -/
structure SharedServiceConfig.ReadFrom (shared : SharedServiceConfig) (json : Json) : Prop where
  serverSalt : field serde.readText [] json "serverSalt" = some shared.serverSalt
  authTokens : field (readList serde.readText) [] json "authTokens" = some shared.authTokens
  tokens : field (readList (readToken serde)) [] json "tokens" = some shared.tokens

theorem readSharedService_eq_some {shared : SharedServiceConfig}
    (h : readSharedService serde json = some shared) : shared.ReadFrom serde json := by
  iterate 6 obtain ⟨_, _, h⟩ := bind_eq_some_iff.mp h
  obtain ⟨_, hsalt, h⟩ := bind_eq_some_iff.mp h
  obtain ⟨_, hauth, h⟩ := bind_eq_some_iff.mp h
  iterate 2 obtain ⟨_, _, h⟩ := bind_eq_some_iff.mp h
  obtain ⟨_, htokens, h⟩ := bind_eq_some_iff.mp h
  iterate 2 obtain ⟨_, _, h⟩ := bind_eq_some_iff.mp h
  obtain rfl := Option.some.inj h
  exact ⟨hsalt, hauth, htokens⟩

/-- The text of the token, if it has one, has no blanks around it. -/
def IsTrimmed (token : Json) : Prop :=
  ∀ text, token.get "token" = some (.str text) → Js.trim text = text

/-- A trimmed token admits what it did. -/
theorem sharedTokenMatches_written {Document : Type} (env : RelayEnv Document)
    {a b : SharedServiceToken} (h : WrittenToken token written) (htrim : IsTrimmed token)
    (ha : readToken serde token = some a) (hb : readToken serde written = some b) (now : UtcTime)
    (raw salt : Text) :
    sharedTokenMatches env now b raw salt = sharedTokenMatches env now a raw salt := by
  have hreadA := readToken_eq_some serde ha
  have hreadB := readToken_eq_some serde hb
  have htoken : a.token = b.token := by
    refine field_congr hreadA.token hreadB.token ?_
    obtain ⟨text, hold, hnew⟩ := h.text
    rw [hnew, hold, htrim text hold]
  have hhash : a.tokenHash = b.tokenHash :=
    field_congr hreadA.tokenHash hreadB.tokenHash (h.same "tokenHash" (by simp))
  have hexpires : a.expiresAt = b.expiresAt :=
    field_congr hreadA.expiresAt hreadB.expiresAt (h.same "expiresAt" (by simp))
  have henabled : a.enabled = b.enabled :=
    field_congr hreadA.enabled hreadB.enabled (h.same "enabled" (by simp))
  simp only [sharedTokenMatches, htoken, hhash, hexpires, henabled]

/-- So do the tokens together. -/
theorem any_matches_written {Document : Type} (env : RelayEnv Document) {mapped : List Json}
    {before after : List SharedServiceToken}
    (h : Forall₂ (fun token written => sanitizeToken token = .ok written) items mapped)
    (htrim : ∀ token ∈ items, IsTrimmed token)
    (hbefore : Forall₂ (fun token a => readToken serde token = some a) items before)
    (hafter : Forall₂ (fun written b => readToken serde written = some b) mapped after)
    (now : UtcTime) (raw salt : Text) :
    after.any (fun t => sharedTokenMatches env now t raw salt) =
      before.any (fun t => sharedTokenMatches env now t raw salt) := by
  induction h generalizing before after with
  | nil =>
    cases hbefore
    cases hafter
    rfl
  | cons hfirst _ ih =>
    cases hbefore with
    | cons ha hbefore =>
      cases hafter with
      | cons hb hafter =>
        rw [forall_mem_cons] at htrim
        rw [any_cons, any_cons, ih htrim.2 hbefore hafter,
          sharedTokenMatches_written serde env (sanitizeToken_eq_ok hfirst) htrim.1 ha hb]

theorem mem_of_read {texts : List Text} (hall : ∀ item ∈ items, IsText item)
    (h : Forall₂ (fun item text => serde.readText item = some text) items texts) (raw : Text) :
    raw ∈ texts ↔ .str raw ∈ items := by
  induction h with
  | nil => simp
  | cons hfirst _ ih =>
    rw [forall_mem_cons] at hall
    obtain ⟨⟨text, rfl⟩, hrest⟩ := hall
    obtain rfl := Option.some.inj hfirst
    rw [mem_cons, mem_cons, ih hrest, Json.str.injEq]

/-- Blank texts are dropped, and no others. -/
theorem any_authTokens_written {before after : List Text} (hall : ∀ token ∈ items, IsText token)
    (hbefore : Forall₂ (fun item text => serde.readText item = some text) items before)
    (hafter : Forall₂ (fun item text => serde.readText item = some text)
      (items.filter (fun token => holds (keepsAuthToken token))) after) (raw : Text) :
    after.any (· == raw) = (before.any (· == raw) && !(Js.trim raw).isEmpty) := by
  have hkept : ∀ item ∈ items.filter (fun token => holds (keepsAuthToken token)), IsText item :=
    fun item hitem => hall item (mem_of_mem_filter hitem)
  have hmem : raw ∈ after ↔ raw ∈ before ∧ Js.trim raw ≠ [] := by
    rw [mem_of_read serde hkept hafter, mem_of_read serde hall hbefore, mem_filter,
      holds_keepsAuthToken]
    simp
  rw [Bool.eq_iff_iff]
  simpa using hmem

/-! ### Reading what is written -/

/-- What is written for a token can be read. -/
theorem reads_writtenToken (h : WrittenToken token written)
    (hreads : Reads (readToken serde) token) : Reads (readToken serde) written := by
  obtain ⟨text, _, htext⟩ := h.text
  have htoken : Optional (Reads serde.readText) (written.get "token") := by
    rw [htext]
    exact optional_some.mpr rfl
  have hname : Optional (Reads serde.readText) (written.get "name") := by
    intro json hjson
    obtain ⟨name, rfl⟩ := h.name.2 json hjson
    rfl
  rw [reads_token] at hreads ⊢
  simp only [fits_cons, fits_nil, and_true] at hreads ⊢
  rw [h.same "id" (by simp), h.same "tokenHash" (by simp), h.same "scopes" (by simp),
    h.same "expiresAt" (by simp), h.same "createdAt" (by simp), h.same "lastUsedAt" (by simp),
    h.same "issuerId" (by simp), h.same "enabled" (by simp), h.same "fixedPort" (by simp),
    h.same "priority" (by simp), h.same "limits" (by simp)]
  obtain ⟨_, hid, _, _, hrest⟩ := hreads
  exact ⟨h.object, hid, hname, htoken, hrest⟩

theorem reads_trimIfSet (h : trimIfSet value = .ok result)
    (hreads : Optional (Reads serde.readText) value) : Optional (Reads serde.readText) result := by
  unfold trimIfSet at h
  split at h
  · intro json hjson
    cases htrim : callTrim value with
    | error e =>
      rw [htrim] at h
      cases h
    | ok text =>
      rw [htrim] at h
      obtain rfl := Except.ok.inj h
      obtain rfl := some.inj hjson
      rfl
  · obtain rfl := Except.ok.inj h
    exact hreads

theorem mathFloor_nat (node : NodeEnv) (n : Nat) : mathFloor node (.num n) = .num n := by
  simp [mathFloor, numberOf]

/-- A port of the range is an integer already; `null` becomes 0. -/
theorem isU16_mathFloor (node : NodeEnv) (h : Optional (NullOr IsIntegerPort) value) :
    Optional IsU16 (value.map (mathFloor node)) := by
  intro json hjson
  obtain ⟨inner, hinner, rfl⟩ := map_eq_some_iff.mp hjson
  rcases h inner hinner with rfl | ⟨n, rfl, _, hn⟩
  · exact ⟨0, by simp [mathFloor, numberOf], by omega⟩
  · exact ⟨n, mathFloor_nat node n, by omega⟩

/-- The range that is written can be read if it was an object. -/
theorem reads_sanitizePortRange (node : NodeEnv)
    (hvalid : Optional (fun json => truthy (some json) = true → ValidPortRange json) value) :
    Optional (Reads readPortRange) (sanitizePortRange node value) ↔ Optional IsObject value := by
  cases value with
  | none => exact iff_of_true optional_none optional_none
  | some json =>
    rw [optional_some]
    cases json with
    | obj fields =>
      have hrange := hvalid _ rfl rfl
      refine iff_of_true (optional_some.mpr ?_) ⟨fields, rfl⟩
      rw [reads_portRange]
      refine ⟨⟨_, rfl⟩, ?_⟩
      simp only [fits_cons, fits_nil, and_true]
      rw [get_withProps_of_mem (by simp) mem_cons_self,
        get_withProps_of_mem (by simp) (mem_cons_of_mem _ mem_cons_self)]
      exact ⟨isU16_mathFloor node hrange.start, isU16_mathFloor node hrange.finish⟩
    | _ =>
      refine iff_of_false (fun h => ?_) (by simp [IsObject])
      obtain ⟨⟨fields, hfields⟩, _⟩ := reads_portRange.mp (optional_some.mp h)
      cases hfields

/-- A write keeps absence, and arrays it maps to arrays. -/
theorem isArrayOf_of_step {P Q : Json → Prop} (step : Value → Except TypeError Value)
    (hnone : step none = .ok none)
    (harray : ∀ items, step (some (.arr items)) = .ok result → (∀ item ∈ items, P item) →
      ∃ items', result = some (.arr items') ∧ ∀ item ∈ items', Q item)
    (h : step value = .ok result) (hvalue : Optional (IsArrayOf P) value) :
    Optional (IsArrayOf Q) result := by
  cases value with
  | none =>
    rw [hnone] at h
    rw [← Except.ok.inj h]
    exact optional_none
  | some json =>
    obtain ⟨items, rfl, hall⟩ := hvalue json rfl
    obtain ⟨items', rfl, hall'⟩ := harray items h hall
    exact optional_some.mpr ⟨items', rfl, hall'⟩

theorem reads_sanitizeAuthTokens (h : sanitizeAuthTokens value = .ok result)
    (hreads : Optional (IsArrayOf (Reads serde.readText)) value) :
    Optional (IsArrayOf (Reads serde.readText)) result :=
  isArrayOf_of_step sanitizeAuthTokens rfl (fun _ hsanitize hall =>
    ⟨_, (sanitizeAuthTokens_arr.mp hsanitize).2, fun item hitem =>
      hall item (mem_of_mem_filter hitem)⟩) h hreads

theorem reads_sanitizeTokens (h : sanitizeTokens value = .ok result)
    (hreads : Optional (IsArrayOf (Reads (readToken serde))) value) :
    Optional (IsArrayOf (Reads (readToken serde))) result := by
  refine isArrayOf_of_step sanitizeTokens rfl (fun items hsanitize hall => ?_) h hreads
  obtain ⟨_, mapped, hmapped, hrel⟩ := sanitizeTokens_arr.mp hsanitize
  refine ⟨mapped, hmapped, fun written hwritten => ?_⟩
  obtain ⟨token, htoken, hsanitizeToken⟩ := exists_of_forall₂_right hrel hwritten
  exact reads_writtenToken serde (sanitizeToken_eq_ok hsanitizeToken)
    (hall token (mem_of_mem_filter htoken))

/-- What is written for the service can be read. -/
theorem reads_writtenShared (hvalid : ValidShared shared) (h : WrittenShared node shared written)
    (hreads : Reads (readSharedService serde) shared) :
    Reads (readSharedService serde) written := by
  have hsame : ∀ key, key ∉ sharedKeys → written.get key = shared.get key := h.same
  rw [reads_sharedService] at hreads ⊢
  simp only [fits_cons, fits_nil, and_true] at hreads ⊢
  rw [hsame "enabled" (by simp [sharedKeys]), hsame "serverSalt" (by simp [sharedKeys]),
    hsame "allowAnonymous" (by simp [sharedKeys]), hsame "queue" (by simp [sharedKeys]),
    hsame "defaults" (by simp [sharedKeys]), hsame "maximums" (by simp [sharedKeys]), h.portRange,
    reads_sanitizePortRange node hvalid.portRange]
  obtain ⟨_, henabled, hcontrol, hpublic, hhost, hrange, hsalt, hauth, hanonymous, hqueue, htokens,
    hdefaults, hmaximums⟩ := hreads
  exact ⟨h.object, henabled, reads_trimIfSet serde h.controlBind hcontrol,
    reads_trimIfSet serde h.publicBind hpublic, reads_trimIfSet serde h.publicHost hhost,
    fun json hjson => (reads_portRange.mp (hrange json hjson)).1, hsalt,
    reads_sanitizeAuthTokens serde h.authTokens hauth, hanonymous, hqueue,
    reads_sanitizeTokens serde h.tokens htokens, hdefaults, hmaximums⟩

end Accepting

/-! ## A write of the GUI -/

/-- The tokens of the shared service. -/
def serviceTokens (config : Json) : List Json :=
  match (config.get "sharedService").bind (·.get "tokens") with
  | some (.arr items) => items
  | _ => []

/-- The properties of a token that a write is to keep. -/
def SameToken (before after : Json) : Prop :=
  ∀ key ∈ ["id", "token", "tokenHash", "scopes", "expiresAt", "fixedPort", "enabled"],
    after.get key = before.get key

section Writing

variable {Document : Type} (env : RelayEnv Document) (serde : Serde)

/-- The tokens are the same ones in the same order, and the relay accepts the same texts. -/
structure TokensKept (config sanitized : Json) : Prop where
  tokens : List.Forall₂ SameToken (serviceTokens config) (serviceTokens sanitized)
  accepted : ∀ before, (config.get "sharedService").bind (readSharedService serde) = some before →
    ∃ after, (sanitized.get "sharedService").bind (readSharedService serde) = some after ∧
      ∀ now raw, sharedTokenIsValid env now after raw = sharedTokenIsValid env now before raw

/-- A token of which only the hash is known. -/
def HashOnly (token : Json) : Prop :=
  truthy (token.get "token") = false ∧ ∃ hash, token.get "tokenHash" = some (.str hash) ∧ hash ≠ []

/-- A blank legacy token that no other token stands for. `handle_connect` refuses a blank
token before it asks for it. -/
def BlankAuthToken (config : Json) : Prop :=
  ∃ shared, (config.get "sharedService").bind (readSharedService serde) = some shared ∧
    ∃ now, ∃ raw ∈ shared.authTokens, Js.trim raw = [] ∧
      ∀ t ∈ shared.tokens, sharedTokenMatches env now t raw shared.serverSalt = false

theorem sharedService_of_sanitize (h : sanitize node config = .ok sanitized) :
    sanitizeSharedService node (config.get "sharedService") =
      .ok (sanitized.get "sharedService") := by
  obtain ⟨_, _, h⟩ := bind_eq_ok.mp h
  obtain ⟨ipBlock, _, h⟩ := bind_eq_ok.mp h
  obtain ⟨sharedService, hshared, h⟩ := bind_eq_ok.mp h
  obtain ⟨listeners, _, h⟩ := bind_eq_ok.mp h
  obtain rfl := Except.ok.inj h
  rw [get_withProps_of_mem (by simp) (by simp : ("sharedService", sharedService) ∈ _)]
  exact hshared

theorem sameToken_of_written (h : WrittenToken token written) (htrim : IsTrimmed token) :
    SameToken token written := by
  intro key hkey
  by_cases htoken : key = "token"
  · obtain ⟨text, hold, hnew⟩ := h.text
    rw [htoken, hnew, hold, htrim text hold]
  · refine h.same key ?_
    simp only [mem_cons, not_mem_nil, or_false] at hkey
    rcases hkey with rfl | rfl | rfl | rfl | rfl | rfl | rfl <;> simp_all

theorem serviceTokens_of_get (h : config.get "sharedService" = some shared)
    (htokens : shared.get "tokens" = some (.arr items)) : serviceTokens config = items := by
  simp [serviceTokens, h, htokens]

theorem serviceTokens_of_none (h : config.get "sharedService" = some shared)
    (htokens : shared.get "tokens" = none) : serviceTokens config = [] := by
  simp [serviceTokens, h, htokens]

/-- **What a write does to the tokens of the shared service.** -/
theorem tokens_of_sanitize (hvalid : ValidService config)
    (h : sanitize node config = .ok sanitized) :
    (∀ token ∈ serviceTokens config, ValidToken token ∧ ∃ value, keepsToken token = .ok value) ∧
      Forall₂ (fun token written => sanitizeToken token = .ok written)
        ((serviceTokens config).filter (fun token => holds (keepsToken token)))
        (serviceTokens sanitized) := by
  have hshared := sharedService_of_sanitize h
  cases hget : config.get "sharedService" with
  | none =>
    rw [hget] at hshared
    have hnone : sanitized.get "sharedService" = none := (Except.ok.inj hshared).symm
    simp [serviceTokens, hget, hnone]
  | some shared =>
    rw [hget] at hshared
    cases htruthy : truthy (some shared) with
    | false =>
      have hsame : sanitized.get "sharedService" = some shared := by
        simp only [sanitizeSharedService, htruthy] at hshared
        exact (Except.ok.inj hshared).symm
      have htokens := get_of_not_truthy htruthy "tokens"
      rw [serviceTokens_of_none hget htokens, serviceTokens_of_none hsame htokens]
      simp
    | true =>
      obtain ⟨written, hresult, hwritten⟩ := sanitizeSharedService_eq_ok htruthy hshared
      have hsanitize := hwritten.tokens
      cases htokens : shared.get "tokens" with
      | none =>
        rw [htokens] at hsanitize
        rw [serviceTokens_of_none hget htokens,
          serviceTokens_of_none hresult (Except.ok.inj hsanitize).symm]
        simp
      | some json =>
        obtain ⟨items, rfl, hall⟩ := (hvalid shared hget htruthy).tokens json htokens
        rw [htokens] at hsanitize
        obtain ⟨hkeeps, mapped, hmapped, hrel⟩ := sanitizeTokens_arr.mp hsanitize
        rw [serviceTokens_of_get hget htokens, serviceTokens_of_get hresult hmapped]
        exact ⟨fun token htoken => ⟨hall token htoken, hkeeps token htoken⟩, hrel⟩

section

variable (h : WrittenShared node shared written) (hbefore : before.ReadFrom serde shared)
  (hafter : after.ReadFrom serde written)

include h hbefore hafter

theorem any_tokens_eq
    (hkept : ∀ items, shared.get "tokens" = some (.arr items) → ∀ token ∈ items,
      holds (keepsToken token) = true ∧ IsTrimmed token) (now : UtcTime) (raw salt : Text) :
    after.tokens.any (fun t => sharedTokenMatches env now t raw salt) =
      before.tokens.any (fun t => sharedTokenMatches env now t raw salt) := by
  rcases lists_of_read sanitizeTokens rfl sanitizeTokens_isArray h.tokens hbefore.tokens
    hafter.tokens with ⟨hnil, hnil'⟩ | ⟨items, mapped, hget, hsanitize, hitems, hmapped⟩
  · rw [hnil, hnil']
  · have hall := hkept items hget
    obtain ⟨_, _, heq, hrel⟩ := sanitizeTokens_arr.mp hsanitize
    obtain rfl := Json.arr.inj (Option.some.inj heq)
    rw [filter_eq_self.mpr (fun token htoken => (hall token htoken).1)] at hrel
    exact any_matches_written serde env hrel (fun token htoken => (hall token htoken).2) hitems
      hmapped now raw salt

theorem any_authTokens_eq (raw : Text) :
    after.authTokens.any (· == raw) =
      (before.authTokens.any (· == raw) && !(Js.trim raw).isEmpty) := by
  rcases lists_of_read sanitizeAuthTokens rfl sanitizeAuthTokens_isArray h.authTokens
    hbefore.authTokens hafter.authTokens with
    ⟨hnil, hnil'⟩ | ⟨items, kept, _, hsanitize, hitems, hkeptRead⟩
  · rw [hnil, hnil']
    rfl
  · obtain ⟨hall, heq⟩ := sanitizeAuthTokens_arr.mp hsanitize
    obtain rfl := Json.arr.inj (some.inj heq)
    exact any_authTokens_written serde hall hitems hkeptRead raw

end

/-- If no token is dropped, the relay accepts the same texts but for blank legacy tokens. -/
theorem accepted_of_sanitize (hvalid : ValidService config)
    (h : sanitize node config = .ok sanitized)
    (hkept : ∀ token ∈ serviceTokens config, holds (keepsToken token) = true ∧ IsTrimmed token)
    (hbefore : (config.get "sharedService").bind (readSharedService serde) = some before) :
    ∃ after, (sanitized.get "sharedService").bind (readSharedService serde) = some after ∧
      ∀ now raw, sharedTokenIsValid env now after raw =
        (before.tokens.any (fun t => sharedTokenMatches env now t raw before.serverSalt) ||
          before.authTokens.any (· == raw) && !(Js.trim raw).isEmpty) := by
  obtain ⟨shared, hget, hread⟩ := bind_eq_some_iff.mp hbefore
  have hreads : Reads (readSharedService serde) shared := isSome_of_eq_some hread
  have htruthy : truthy (some shared) = true := by
    obtain ⟨⟨fields, rfl⟩, _⟩ := (reads_sharedService serde).mp hreads
    rfl
  have hshared := sharedService_of_sanitize h
  rw [hget] at hshared
  obtain ⟨written, hresult, hwritten⟩ := sanitizeSharedService_eq_ok htruthy hshared
  have hreadsWritten :=
    reads_writtenShared serde (hvalid shared hget htruthy) hwritten hreads
  obtain ⟨after, hafter⟩ := isSome_iff_exists.mp hreadsWritten
  refine ⟨after, by rw [hresult]; exact hafter, fun now raw => ?_⟩
  have hbeforeRead := readSharedService_eq_some serde hread
  have hafterRead := readSharedService_eq_some serde hafter
  have hsalt : before.serverSalt = after.serverSalt :=
    field_congr hbeforeRead.serverSalt hafterRead.serverSalt
      (hwritten.same "serverSalt" (by simp [sharedKeys]))
  rw [sharedTokenIsValid, ← hsalt,
    any_tokens_eq env serde hwritten hbeforeRead hafterRead (fun items hitems token htoken =>
      hkept token (by rwa [serviceTokens_of_get hget hitems])),
    any_authTokens_eq serde hwritten hbeforeRead hafterRead]

/-- A token of an accepted configuration is kept unless it carries its hash only. -/
theorem holds_keepsToken_iff (hvalid : ValidToken token)
    (hkeeps : ∃ value, keepsToken token = .ok value) (htrim : IsTrimmed token) :
    holds (keepsToken token) = true ↔ ¬ HashOnly token := by
  rw [holds_keepsToken hvalid.nonnull]
  constructor
  · intro ⟨text, htext, hne⟩ hhash
    have hempty := hhash.1
    rw [htext] at hempty
    have hnil : text = [] := by simpa [truthy] using hempty
    exact hne (by rw [hnil]; rfl)
  · intro hhash
    have htext : ∃ text, token.get "token" = some (.str text) ∧ text ≠ [] := by
      rcases hvalid.text with htext | htokenHash
      · exact htext
      · have htruthy : truthy (token.get "token") = true := by
          by_contra hfalse
          exact hhash ⟨Bool.eq_false_iff.mpr hfalse, htokenHash⟩
        cases hget : token.get "token" with
        | none =>
          rw [hget] at htruthy
          cases htruthy
        | some json =>
          rw [hget] at htruthy
          obtain ⟨text, rfl⟩ := (exists_keepsToken hvalid.nonnull).mp hkeeps json hget htruthy
          exact ⟨text, rfl, by simpa [truthy] using htruthy⟩
    obtain ⟨text, hget, hne⟩ := htext
    exact ⟨text, hget, by rw [htrim text hget]; exact hne⟩

/-- **A write keeps the tokens of an accepted configuration if and only if none of them
carries its hash only and no legacy token is blank**: an entry without a text is dropped. -/
theorem tokens_kept_iff (node : NodeEnv) {config sanitized : Json}
    (hvalid : validate node config = .ok []) (h : sanitize node config = .ok sanitized)
    (htrim : ∀ token ∈ serviceTokens config, ∀ text, token.get "token" = some (.str text) →
      Js.trim text = text) :
    TokensKept env serde config sanitized ↔
      (∀ token ∈ serviceTokens config, ¬ HashOnly token) ∧ ¬ BlankAuthToken env serde config := by
  have hservice := validService_of_validate hvalid
  obtain ⟨hvalidTokens, hrel⟩ := tokens_of_sanitize hservice h
  have hholds : ∀ token ∈ serviceTokens config,
      (holds (keepsToken token) = true ↔ ¬ HashOnly token) := fun token htoken =>
    holds_keepsToken_iff (hvalidTokens token htoken).1 (hvalidTokens token htoken).2
      (htrim token htoken)
  have hallKept : (∀ token ∈ serviceTokens config, ¬ HashOnly token) →
      ∀ token ∈ serviceTokens config, holds (keepsToken token) = true ∧ IsTrimmed token :=
    fun hall token htoken => ⟨(hholds token htoken).mpr (hall token htoken), htrim token htoken⟩
  constructor
  · intro hkept
    have hall : ∀ token ∈ serviceTokens config, ¬ HashOnly token := by
      intro token htoken
      have hlength := hkept.tokens.length_eq.trans hrel.length_eq.symm
      exact (hholds token htoken).mp (length_filter_eq_length_iff.mp hlength.symm token htoken)
    refine ⟨hall, fun ⟨before, hbefore, now, raw, hmem, hblank, hunmatched⟩ => ?_⟩
    obtain ⟨after, hafter, hsame⟩ := hkept.accepted before hbefore
    obtain ⟨_, hafter', hafterEq⟩ :=
      accepted_of_sanitize env serde hservice h (hallKept hall) hbefore
    obtain rfl := Option.some.inj (hafter.symm.trans hafter')
    have hvalidBefore : sharedTokenIsValid env now before raw = true := by
      simp [sharedTokenIsValid, hmem]
    have hinvalidAfter : sharedTokenIsValid env now after raw = false := by
      rw [hafterEq, List.any_eq_false.mpr (by simpa using hunmatched), hblank]
      simp
    rw [hsame, hvalidBefore] at hinvalidAfter
    cases hinvalidAfter
  · intro ⟨hall, hblank⟩
    refine ⟨?_, fun before hbefore => ?_⟩
    · rw [filter_eq_self.mpr (fun token htoken => (hallKept hall token htoken).1)] at hrel
      exact ((forall₂_and_left _ _).mpr ⟨htrim, hrel⟩).imp (fun _ _ hboth =>
        sameToken_of_written (sanitizeToken_eq_ok hboth.2) hboth.1)
    · obtain ⟨after, hafter, hafterEq⟩ :=
        accepted_of_sanitize env serde hservice h (hallKept hall) hbefore
      refine ⟨after, hafter, fun now raw => ?_⟩
      rw [hafterEq, sharedTokenIsValid]
      cases hany : before.tokens.any
          (fun t => sharedTokenMatches env now t raw before.serverSalt) with
      | true => rfl
      | false =>
        have hnotBlank : raw ∈ before.authTokens → Js.trim raw ≠ [] := fun hmem hnil =>
          hblank ⟨before, hbefore, now, raw, hmem, hnil, by simpa using hany⟩
        rw [Bool.eq_iff_iff]
        simpa using hnotBlank

end Writing

/-! ### Two tokens -/

def plainNode : NodeEnv where
  isIp _ := 0
  isHttpUrl _ := false
  toNumber _ := none
  toText _ := []
  toLowerCase := toAsciiLowercase

def plainSerde : Serde where
  plainText _ := none
  addresses := dottedSyntax

/-- A shared service with one token. -/
def tokenConfig (token : Fields) : Json :=
  .obj [(.name "sharedService", .obj [(.name "serverSalt", .str "salt".toList),
    (.name "tokens", .arr [.obj token])])]

/-- A token as the manager API issues it: the hash of its text, here the text and the salt. -/
def issuedConfig : Json :=
  tokenConfig [(.name "id", .str "tok_1".toList), (.name "tokenHash", .str "alphasalt".toList)]

/-- The manager's token is accepted before a write of the GUI and not after it. -/
theorem issued_token_dropped :
    validate plainNode issuedConfig = .ok [] ∧
      (∀ token ∈ serviceTokens issuedConfig, ∀ text, token.get "token" = some (.str text) →
        Js.trim text = text) ∧
      ∃ sanitized, sanitize plainNode issuedConfig = .ok sanitized ∧
        ¬ TokensKept fragileEnv plainSerde issuedConfig sanitized ∧
        ∃ before after,
          (issuedConfig.get "sharedService").bind (readSharedService plainSerde) = some before ∧
          (sanitized.get "sharedService").bind (readSharedService plainSerde) = some after ∧
          sharedTokenIsValid fragileEnv 0 before "alpha".toList = true ∧
          sharedTokenIsValid fragileEnv 0 after "alpha".toList = false := by
  refine ⟨rfl, ?_, _, rfl, ?_, _, _, rfl, rfl, rfl, rfl⟩
  · intro token htoken text htext
    obtain rfl := mem_singleton.mp htoken
    cases htext
  · intro hkept
    cases hkept.tokens

/-- A token that was entered with its text. -/
def enteredConfig : Json :=
  tokenConfig [(.name "id", .str "tok_1".toList), (.name "token", .str "alpha".toList)]

/-- A token that was entered with its text is kept or not as the theorem says. -/
theorem tokens_kept_iff_entered :
    ∃ sanitized, sanitize plainNode enteredConfig = .ok sanitized ∧
      (TokensKept fragileEnv plainSerde enteredConfig sanitized ↔
        (∀ token ∈ serviceTokens enteredConfig, ¬ HashOnly token) ∧
          ¬ BlankAuthToken fragileEnv plainSerde enteredConfig) ∧
      serviceTokens enteredConfig ≠ [] := by
  refine ⟨_, rfl, tokens_kept_iff fragileEnv plainSerde plainNode rfl rfl ?_, ?_⟩
  · intro token htoken text htext
    obtain rfl := mem_singleton.mp htoken
    obtain rfl := Json.str.inj (some.inj htext)
    decide
  · exact cons_ne_nil _ _

end FerrumProxy
