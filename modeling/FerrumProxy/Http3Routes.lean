import FerrumProxy.HostRouting
import FerrumProxy.RouteSelection
import FerrumProxy.TextLines
import FerrumProxy.Utf8Texts

/-!
# Two front ends for one origin

A listener with a certificate answers HTTP/3 as well as HTTP/1.1.  Both choose the target with
`ListenerRule::http_targets_for_request`; then `http3::forward` sends the path and the query as
they are, while the TCP side passes the request to `rewrite_http_request` if the target is
written as a URL.  The documentation of the front end says that it does not rewrite.
-/

namespace FerrumProxy

open Wire Str Lists

/-! ### HTTP/3 -/

/-- The parts of a request that `forward` looks at. -/
structure Http3Request where
  authority : Option Text
  method : Text
  path : Text
  query : Option Text := none

/-- What `forward` does with a request. -/
inductive Http3Outcome where
  | misdirected
  | sent (target : ProxyTarget) (requestTarget host : Text)

def explicitHost (rule : ListenerRule) (hostname : Text) : Bool :=
  rule.httpMappings.any (fun m => m.hostname.any (fun host => eqIgnoreAsciiCase host hostname))

/-- `forward` up to the request it sends; `authorityHost` parses an authority and returns
its host, and `reachable` says which targets accept a connection. -/
def forward (authorityHost : Text → Except String Text) (reachable : ProxyTarget → Bool)
    (rule : ListenerRule) (request : Http3Request) : Except String Http3Outcome :=
  match request.authority with
  | none => .error "HTTP/3 authority required"
  | some authority => do
      let host ← authorityHost authority
      let hostname := toAsciiLowercase (trimEndMatches '.' host)
      if !explicitHost rule hostname || request.method == "CONNECT".toList then
        return .misdirected
      else
        match (rule.httpTargetsForRequest .tcp (some request.path) (some hostname)).head? with
        | none => .error "HTTP/3 route has no origin"
        | some target => do
            ensure (target.urlProtocol != some "https".toList)
              "HTTP/3 HTTPS origins not configured"
            ensure target.tcp.isSome "origin port"
            ensure (reachable target) "connection failed"
            return .sent target (request.path ++ querySuffix request.query) authority

variable {reachable : ProxyTarget → Bool} {basePath mountPath host : Option Text}
  {protocol : Protocol}

/-- What is sent over HTTP/3, and where. -/
theorem forward_eq_sent {authorityHost : Text → Except String Text} {rule : ListenerRule}
    {request : Http3Request} {target : ProxyTarget} {sent host : Text}
    (h : forward authorityHost reachable rule request = .ok (.sent target sent host)) :
    sent = request.path ++ querySuffix request.query ∧ reachable target = true ∧
      ∃ name, authorityHost host = .ok name ∧
        explicitHost rule (toAsciiLowercase (trimEndMatches '.' name)) = true ∧
        (rule.httpTargetsForRequest .tcp (some request.path)
          (some (toAsciiLowercase (trimEndMatches '.' name)))).head? = some target := by
  unfold forward at h
  split at h
  · cases h
  obtain ⟨name, hname, h⟩ := bind_eq_ok.mp h
  dsimp only at h
  split at h
  · cases h
  rename_i hexplicit
  split at h
  · cases h
  rename_i first hfirst
  obtain ⟨_, _, h⟩ := bind_eq_ok.mp h
  obtain ⟨_, _, h⟩ := bind_eq_ok.mp h
  obtain ⟨_, hreachable, h⟩ := bind_eq_ok.mp h
  cases h
  rw [Bool.or_eq_true, not_or, Bool.not_eq_true'] at hexplicit
  exact ⟨rfl, ensure_eq_ok.mp hreachable, name, hname, Bool.of_not_eq_false hexplicit.1, hfirst⟩

/-! ### HTTP/1.1 -/

/-- The loop over the targets: the first one with a port that accepts a connection. -/
def firstReachable (reachable : ProxyTarget → Bool) (targets : List ProxyTarget) :
    Option ProxyTarget :=
  targets.find? (fun t => t.tcp.isSome && reachable t)

/-- `handle_client` once it has read the head: the target, and what it is sent. -/
def tcpForward (url : UrlParser) (reachable : ProxyTarget → Bool) (rule : ListenerRule)
    (clientAddr : SocketAddr) (firstBuf : Bytes) (pending : List Bytes) :
    Except String (ProxyTarget × Bytes) := do
  let service ← serveClient url rule clientAddr firstBuf pending
  match firstReachable reachable service.targets with
  | none => .error "all TCP targets failed"
  | some target => return (target, service.clientToTarget url rule target)

def requestLine (method target version : Text) : Text :=
  method ++ ' ' :: (target ++ ' ' :: version)

/-- The request target that an origin reads: the second word of the first line. -/
def requestTarget (bytes : Bytes) : Option Text :=
  (splitWhitespace ((splitCrlf (fromUtf8Lossy bytes)).headD []))[1]?

/-- A request of HTTP/1.x with its whole head. -/
structure IsRequest (buf : Bytes) (method target version : Text) : Prop where
  method_word : IsWord method
  target_word : IsWord target
  version_word : IsWord version
  http1 : "HTTP/1.".toList.isPrefixOf version = true
  head : ∃ headEnd rest, headerEnd buf = some headEnd ∧
    buf.take headEnd = toUtf8 (requestLine method target version ++ '\r' :: '\n' :: rest)

open List

section Lines

variable {method target version rest : Text}

section

variable (hmethod : IsWord method) (htarget : IsWord target) (hversion : IsWord version)

include hmethod htarget hversion

theorem splitWhitespace_requestLine :
    splitWhitespace (requestLine method target version) = [method, target, version] := by
  rw [requestLine, splitWhitespace_cons hmethod, splitWhitespace_cons htarget,
    splitWhitespace_word hversion]

/-- A request line is one line. -/
theorem notMem_requestLine {c : Char} (hblank : isWhitespace c = true) (hc : c ≠ ' ') :
    c ∉ requestLine method target version := by
  have hword : ∀ {w : Text}, IsWord w → c ∉ w := by
    intro w hw hmem
    rw [hw.2 c hmem] at hblank
    cases hblank
  simp [requestLine, hc, hword hmethod, hword htarget, hword hversion]

theorem splitCrlf_requestLine :
    splitCrlf (requestLine method target version ++ '\r' :: '\n' :: rest) =
      requestLine method target version :: splitCrlf rest := by
  have hline : '\r' ∉ requestLine method target version :=
    notMem_requestLine hmethod htarget hversion rfl (by decide)
  rw [splitCrlf_append, splitCrlf_line hline]
  rfl

/-- An origin reads the target of the first line. -/
theorem requestTarget_append (more : Bytes) :
    requestTarget (toUtf8 (requestLine method target version ++ '\r' :: '\n' :: rest) ++ more) =
      some target := by
  rw [requestTarget, fromUtf8Lossy_append, append_assoc, cons_append, cons_append,
    splitCrlf_requestLine hmethod htarget hversion, headD_cons,
    splitWhitespace_requestLine hmethod htarget hversion]
  rfl

end

/-- The first line that is written has the new path. -/
theorem rewriteLines_first (url : UrlParser) (t : ProxyTarget)
    (forwardedProto method target version : Text) (lines : List Text) :
    ∃ others, rewriteLines url t forwardedProto method target version lines =
      requestLine method (normalizeProxyPath url t.urlBasePath target t.mountPath) version ::
        others := by
  have hline : method ++ " ".toList ++ normalizeProxyPath url t.urlBasePath target t.mountPath ++
      " ".toList ++ version =
      requestLine method (normalizeProxyPath url t.urlBasePath target t.mountPath) version := by
    simp [requestLine]
  unfold rewriteLines
  dsimp only
  rw [hline]
  split <;> split <;> split <;> (try split) <;> exact ⟨_, rfl⟩

/-- Whatever lines follow, a line end stands behind the first one. -/
theorem joinCrlf_cons (line : Text) (others : List Text) :
    ∃ tail, joinCrlf (line :: others) ++ "\r\n\r\n".toList = line ++ '\r' :: '\n' :: tail := by
  cases others with
  | nil => exact ⟨['\r', '\n'], by simp [joinCrlf]⟩
  | cons next others =>
    exact ⟨joinCrlf (next :: others) ++ "\r\n\r\n".toList, by simp [joinCrlf]⟩

end Lines

namespace IsRequest

variable {buf : Bytes} {method target version : Text}

/-- The path that the TCP side reads. -/
theorem httpRequestPath_eq (url : UrlParser) {path : Text} {query : Option Text}
    (h : IsRequest buf method (path ++ querySuffix query) version) (hpath : IsRequestPath path) :
    httpRequestPath url buf = some path := by
  obtain ⟨headEnd, rest, hend, htake⟩ := h.head
  have hline : firstLine (requestLine method (path ++ querySuffix query) version ++
      '\r' :: '\n' :: rest) = requestLine method (path ++ querySuffix query) version := by
    have hlines := lines_line (notMem_requestLine (c := '\n') h.method_word h.target_word
      h.version_word rfl (by decide))
    rw [firstLine_eq, lines_eq_flatMap,
      splitCrlf_requestLine h.method_word h.target_word h.version_word, flatMap_cons, hlines]
    rfl
  have hcut : (splitOnce '?' (path ++ querySuffix query)).map Prod.fst =
      query.map (fun _ => path) := by
    cases query with
    | none => simp [querySuffix, splitOnce_of_notMem hpath.no_query]
    | some q =>
      rw [querySuffix, Option.map_some, Option.getD_some]
      exact congrArg (Option.map Prod.fst) (splitOnce_append hpath.no_query q)
  have hscheme : hasUrlScheme (path ++ querySuffix query) = false := by
    obtain ⟨tail, rfl⟩ := List.head?_eq_some_iff.mp hpath.rooted
    rfl
  rw [httpRequestPath, hend, Option.getD_some, htake, fromUtf8Lossy_toUtf8, hline, requestLinePath,
    splitWhitespace_requestLine h.method_word h.target_word h.version_word]
  simp only [h.http1, if_true, hscheme, Bool.false_eq_true, if_false, hcut]
  cases query with
  | none => simp [querySuffix, hpath.rooted]
  | some q => simp [hpath.rooted]

section

variable (h : IsRequest buf method target version)

include h

/-- A request is recognised by its method. -/
theorem isLikelyHttpRequest_eq : isLikelyHttpRequest buf = httpMethods.contains method := by
  obtain ⟨headEnd, rest, hend, htake⟩ := h.head
  have hspace : ' ' ∉ method := fun hmem => Bool.noConfusion (h.method_word.2 ' ' hmem)
  unfold isLikelyHttpRequest
  dsimp only
  rw [hend, Option.getD_some, htake, fromUtf8Lossy_toUtf8,
    splitCrlf_requestLine h.method_word h.target_word h.version_word, headD_cons, requestLine,
    split_append hspace, headD_cons]

theorem requestTarget_eq (more : Bytes) : requestTarget (buf ++ more) = some target := by
  obtain ⟨headEnd, rest, hend, htake⟩ := h.head
  rw [← take_append_drop headEnd buf, htake, append_assoc]
  exact requestTarget_append h.method_word h.target_word h.version_word _

/-- The request reaches the TCP side as it is. -/
theorem incomingChain_eq : incomingChain buf = ⟨[], 0⟩ := by
  obtain ⟨headEnd, rest, hend, htake⟩ := h.head
  obtain ⟨c, tail, rfl⟩ := exists_cons_of_ne_nil h.method_word.1
  have hvisible : isWhitespace c = false := h.method_word.2 c mem_cons_self
  have hhead : (buf.take headEnd).head? ≠ some 0x0d := by
    rw [htake]
    exact toUtf8_head hvisible _
  have hne : buf.take headEnd ≠ [] := by
    intro hnil
    rw [htake] at hnil
    simp [requestLine, toUtf8] at hnil
  have hsignature : ¬ signature <+: buf := by
    rw [← take_append_drop headEnd buf]
    exact not_signature_of_head hne hhead _
  rw [incomingChain, parseProxyChain_payload (.inr hsignature)]

/-- A rewritten request begins with its line. -/
theorem rewriteHttpRequest_eq (url : UrlParser) (t : ProxyTarget) (forwardedProto : Text) :
    ∃ rest more, rewriteHttpRequest url buf t forwardedProto =
      toUtf8 (requestLine method (normalizeProxyPath url t.urlBasePath target t.mountPath)
        version ++ '\r' :: '\n' :: rest) ++ more := by
  obtain ⟨headEnd, rest, hend, htake⟩ := h.head
  obtain ⟨others, hothers⟩ := rewriteLines_first url t forwardedProto method target version
    (splitCrlf rest)
  obtain ⟨tail, htail⟩ := joinCrlf_cons (requestLine method
    (normalizeProxyPath url t.urlBasePath target t.mountPath) version) others
  have hrewritten : rewriteHead url t forwardedProto (requestLine method target version ++
      '\r' :: '\n' :: rest) = some (joinCrlf (requestLine method
        (normalizeProxyPath url t.urlBasePath target t.mountPath) version :: others)) := by
    rw [rewriteHead, splitCrlf_requestLine h.method_word h.target_word h.version_word]
    dsimp only
    rw [splitWhitespace_requestLine h.method_word h.target_word h.version_word]
    simp only [h.http1, if_true, hothers]
  refine ⟨tail, buf.drop (headEnd + 4), ?_⟩
  unfold rewriteHttpRequest
  rw [hend]
  simp only [htake, fromUtf8Lossy_toUtf8, hrewritten]
  rw [← htail, toUtf8_append]
  rfl

end

end IsRequest

/-! ### What is rewritten -/

/-- The request is passed to `rewrite_http_request`. -/
def IsRewritten (rule : ListenerRule) (t : ProxyTarget) (method path : Text) : Prop :=
  t.urlProtocol.isSome = true ∧ method ∈ httpMethods ∧
    ¬ (rule.advertise.isSome = true ∧ isJoinPath path = true)

/-- Rewriting leaves the path as it is: there is no base path, or the path lies under it
already, and nothing is cut off. -/
def KeepsPath (t : ProxyTarget) (path : Text) : Prop :=
  (pathBase t.urlBasePath = [] ∨ Under (pathBase t.urlBasePath) path) ∧ pathBase t.mountPath = []

section Rewritten

variable {url : UrlParser} {rule : ListenerRule} {t : ProxyTarget} {path : Text}

/-- When a path is kept. -/
theorem rewrittenPath_eq_self_iff (hpath : path.head? = some '/') :
    rewrittenPath basePath mountPath path = path ↔
      (pathBase basePath = [] ∨ Under (pathBase basePath) path) ∧
        (pathBase mountPath = [] ∨ ¬ Under (pathBase mountPath) path) := by
  unfold rewrittenPath
  split
  · rename_i hbase
    rw [stripMountPath_eq_self_iff hpath]
    exact (and_iff_right hbase).symm
  · rename_i hbase
    refine iff_of_false (fun heq => hbase (.inr ?_)) (fun h => hbase h.1)
    exact under_iff.mpr ⟨_, heq.symm, .inr (stripMountPath_head hpath)⟩

/-- A rewritten target is still one word. -/
theorem isWord_rewritten {query : Option Text} (hbase : IsBasePath basePath)
    (hpath : IsRequestPath path) (hword : IsWord (path ++ querySuffix query)) :
    IsWord (rewrittenPath basePath mountPath path ++ querySuffix query) := by
  have hhead : (stripMountPath path mountPath).head? = some '/' := stripMountPath_head hpath.rooted
  have hstrip : ∀ c ∈ stripMountPath path mountPath, isWhitespace c = false := by
    intro c hc
    rcases stripMountPath_mem hc hpath.rooted with hmem | rfl
    · exact hword.2 c (mem_append_left _ hmem)
    · decide
  have hne : stripMountPath path mountPath ≠ [] := fun hnil => by
    rw [hnil] at hhead
    cases hhead
  have hquery : ∀ c ∈ querySuffix query, isWhitespace c = false :=
    fun c hc => hword.2 c (mem_append_right _ hc)
  unfold rewrittenPath
  split
  · exact ⟨by simp [hne], forall_mem_append.mpr ⟨hstrip, hquery⟩⟩
  · have hclean : ∀ c ∈ pathBase basePath, isWhitespace c = false :=
      fun c hc => (hbase.clean c (hbase.base_eq ▸ hc)).1
    rw [IsWord, forall_mem_append, forall_mem_append]
    exact ⟨by simp [hne], ⟨hclean, hstrip⟩, hquery⟩

/-- Signaling and targets that are no URLs get the bytes as they are. -/
theorem clientToTarget_relayed {service : Service}
    (h : rule.advertise.isSome = true ∧
        (httpRequestPath url service.initialPayload).any isJoinPath = true ∨
      t.urlProtocol.isSome = false) :
    ∃ more, service.clientToTarget url rule t = service.initialPayload ++ more := by
  unfold Service.clientToTarget
  dsimp only
  split
  · split <;> exact ⟨_, rfl⟩
  · split
    · exact ⟨_, rfl⟩
    · rename_i hsignaling hurl
      rw [Bool.or_eq_true, not_or, Bool.and_eq_true] at hsignaling
      rcases h with hjoin | hnone
      · exact absurd hjoin hsignaling.1
      · exact absurd (Option.isSome_eq_false_iff.mp hnone) hurl

theorem clientToTarget_rewritten {service : Service} {headEnd : Nat}
    (hhead : headerEnd service.initialPayload = some headEnd) (hurl : t.urlProtocol.isSome = true)
    (hjoin : ¬ (rule.advertise.isSome = true ∧
      (httpRequestPath url service.initialPayload).any isJoinPath = true)) :
    ∃ more, service.clientToTarget url rule t =
      rewriteChunk url t rule.forwardedProto service.initialPayload ++ more := by
  obtain ⟨protocol, hprotocol⟩ := Option.isSome_iff_exists.mp hurl
  have hsignaling : (rule.advertise.isSome &&
      (httpRequestPath url service.initialPayload).any isJoinPath) = false := by
    rw [Bool.eq_false_iff, ne_eq, Bool.and_eq_true]
    exact hjoin
  unfold Service.clientToTarget
  rw [hsignaling, hprotocol]
  simp only [Option.isNone_some, Bool.and_false, Bool.or_self, Bool.false_eq_true, if_false]
  rw [clientToTarget_eq hurl, relayFrom_head hhead]
  exact ⟨_, rfl⟩

section Sent

variable {service : Service} {method version : Text} {query : Option Text}

/-- The target of a request that is rewritten. -/
theorem requestTarget_of_rewritten (hbase : IsBasePath t.urlBasePath) (hpath : IsRequestPath path)
    (h : IsRequest service.initialPayload method (path ++ querySuffix query) version)
    (hrewritten : IsRewritten rule t method path) :
    requestTarget (service.clientToTarget url rule t) =
      some (rewrittenPath t.urlBasePath t.mountPath path ++ querySuffix query) := by
  obtain ⟨hurl, hmethod, hjoin⟩ := hrewritten
  obtain ⟨headEnd, _, hend, _⟩ := h.head
  have hlikely : isLikelyHttpRequest service.initialPayload = true := by
    rw [h.isLikelyHttpRequest_eq]
    exact elem_eq_true_of_mem hmethod
  obtain ⟨rest, more, hrequest⟩ := h.rewriteHttpRequest_eq url t rule.forwardedProto
  obtain ⟨others, hsent⟩ := clientToTarget_rewritten hend hurl
    (by rw [h.httpRequestPath_eq url hpath]; exact hjoin)
  rw [hsent, rewriteChunk, if_pos hlikely, hrequest, normalizeProxyPath_eq url hpath query,
    append_assoc]
  exact requestTarget_append h.method_word (isWord_rewritten hbase hpath h.target_word)
    h.version_word _

/-- The target of a request that is not rewritten. -/
theorem requestTarget_of_not_rewritten (hpath : IsRequestPath path)
    (h : IsRequest service.initialPayload method (path ++ querySuffix query) version)
    (hnot : ¬ IsRewritten rule t method path) :
    requestTarget (service.clientToTarget url rule t) = some (path ++ querySuffix query) := by
  have hsame : ∃ more, service.clientToTarget url rule t = service.initialPayload ++ more := by
    by_cases hurl : t.urlProtocol.isSome = true
    · by_cases hjoin : rule.advertise.isSome = true ∧ isJoinPath path = true
      · refine clientToTarget_relayed (.inl ?_)
        rw [h.httpRequestPath_eq url hpath]
        exact hjoin
      · obtain ⟨headEnd, _, hend, _⟩ := h.head
        have hlikely : isLikelyHttpRequest service.initialPayload = false := by
          rw [h.isLikelyHttpRequest_eq, Bool.eq_false_iff, ne_eq, contains_iff_mem]
          exact fun hmethod => hnot ⟨hurl, hmethod, hjoin⟩
        obtain ⟨more, hsent⟩ := clientToTarget_rewritten hend hurl
          (by rw [h.httpRequestPath_eq url hpath]; exact hjoin)
        rw [rewriteChunk, hlikely] at hsent
        exact ⟨more, hsent⟩
    · exact clientToTarget_relayed (.inr (Bool.eq_false_iff.mpr hurl))
  obtain ⟨more, hmore⟩ := hsame
  rw [hmore]
  exact h.requestTarget_eq more

end Sent

end Rewritten

/-! ### One resource over both -/

/-- A rule as `ProxyConfig::load` leaves it. -/
def ListenerRule.IsLoaded (url : UrlParser) (rule : ListenerRule) : Prop :=
  ∃ raw : ListenerRule, raw.withoutSkipped = raw ∧ rule = raw.normalizeTargets url

section Resource

variable {url : UrlParser} {rule : ListenerRule} {target : ProxyTarget} {path : Text}

/-- Every target of a request is mounted where it matches. -/
theorem target_of_route (hrule : rule.IsLoaded url)
    (htarget : target ∈ rule.httpTargetsForRequest protocol (some path) host) :
    ∃ mapping t, t.urlBasePath = none ∧
      target = mountTarget url (normalizeMappingPath mapping) t ∧
      pathMatchesMapping path (normalizeMappingPath mapping) = true := by
  obtain ⟨raw, hread, rfl⟩ := hrule
  obtain ⟨m, hm, happlies, htargets⟩ := mapping_of_route htarget
  obtain ⟨rawMapping, hmem, rfl⟩ := List.mem_map.mp hm
  have hchoice := (mem_filter.mp htargets).1
  simp only [HttpTargetMapping.normalize, chosenTargets_map] at hchoice
  obtain ⟨t, ht, rfl⟩ := List.mem_map.mp hchoice
  have hskipped : t.withoutSkipped = t := by
    refine HttpTargetMapping.skipped ((ListenerRule.skipped hread).2 rawMapping hmem) t ?_
    unfold chosenTargets at ht
    split at ht
    · exact mem_append_left _ ht
    · exact mem_append_right _ ht
  rw [mappingApplies, Bool.and_eq_true] at happlies
  exact ⟨rawMapping.path, t, congrArg ProxyTarget.urlBasePath hskipped.symm, rfl, happlies.1⟩

theorem keepsPath_of_route (hurl : url.Standard) (hrule : rule.IsLoaded url)
    (hpath : IsRequestPath path)
    (htarget : target ∈ rule.httpTargetsForRequest protocol (some path) host) :
    IsBasePath target.urlBasePath ∧
      (rewrittenPath target.urlBasePath target.mountPath path = path ↔ KeepsPath target path) := by
  obtain ⟨mapping, t, ht, rfl, hmatches⟩ := target_of_route hrule htarget
  refine ⟨isBasePath_of_normalizeUrlHost hurl ht, ?_⟩
  rw [rewrittenPath_eq_self_iff hpath.rooted]
  refine and_congr_right (fun _ => or_iff_left_of_imp (fun hunder => ?_))
  rw [mountTarget] at hunder ⊢
  rcases pathBase_normalizeMappingPath mapping with ⟨_, hnil⟩ | ⟨hroot, hbase, _⟩
  · exact hnil
  · rw [hbase] at hunder
    exact absurd ((pathMatchesMapping_iff.mp hmatches).resolve_left hroot) hunder

/-- The TCP side takes the target for the request. -/
def RoutedTo (url : UrlParser) (reachable : ProxyTarget → Bool) (rule : ListenerRule) (buf : Bytes)
    (target : ProxyTarget) : Prop :=
  ∃ targets, routeRequest url rule buf = .ok targets ∧
    firstReachable reachable targets = some target

/-- What the TCP side sends, and where. -/
theorem tcpForward_eq_ok {buf bytes : Bytes} {method requested version : Text}
    (hbuf : IsRequest buf method requested version) (clientAddr : SocketAddr)
    (pending : List Bytes) :
    tcpForward url reachable rule clientAddr buf pending = .ok (target, bytes) ↔
      ∃ targets, routeRequest url rule buf = .ok targets ∧
        firstReachable reachable targets = some target ∧
        bytes = (⟨clientAddr, targets, buf, pending⟩ : Service).clientToTarget url rule target := by
  have hchain := hbuf.incomingChain_eq
  have hserve : ∀ service, serveClient url rule clientAddr buf pending = .ok service ↔
      ∃ targets, routeRequest url rule buf = .ok targets ∧
        service = ⟨clientAddr, targets, buf, pending⟩ := by
    intro service
    rw [serveClient_eq_ok, receiveStream_of_none hchain, hchain]
    exact and_iff_right (fun _ => rfl)
  rw [tcpForward, bind_eq_ok]
  constructor
  · intro ⟨service, hservice, hsent⟩
    obtain ⟨targets, hroute, rfl⟩ := (hserve service).mp hservice
    split at hsent <;> cases hsent
    next hfirst => exact ⟨targets, hroute, hfirst, rfl⟩
  · intro ⟨targets, hroute, hfirst, hbytes⟩
    refine ⟨_, (hserve _).mpr ⟨targets, hroute, rfl⟩, ?_⟩
    rw [hfirst, hbytes]
    rfl

/-- The TCP side takes the first target of a mapping for the host that it reads. -/
theorem routedTo_of_host {buf : Bytes} {method version hostname : Text} {query : Option Text}
    (hpath : IsRequestPath path) (hbuf : IsRequest buf method (path ++ querySuffix query) version)
    (hexplicit : explicitHost rule hostname = true) (hreachable : reachable target = true)
    (htarget : (rule.httpTargetsForRequest .tcp (some path) (some hostname)).head? = some target)
    (hhost : httpRequestHost url buf = .ok (some hostname)) :
    RoutedTo url reachable rule buf target := by
  have hrouting : rule.hostRouting = true := by
    obtain ⟨m, hm, hname⟩ := List.any_eq_true.mp hexplicit
    exact List.any_eq_true.mpr ⟨m, hm, Option.isSome_of_any hname⟩
  obtain ⟨others, hothers⟩ := List.head?_eq_some_iff.mp htarget
  have hport : target.tcp.isSome = true := by
    have hmem : target ∈ rule.httpTargetsForRequest .tcp (some path) (some hostname) :=
      hothers ▸ mem_cons_self
    obtain ⟨m, _, _, htargets⟩ := mapping_of_route hmem
    exact (mem_filter.mp htargets).2
  refine ⟨target :: others, ?_, ?_⟩
  · unfold routeRequest
    rw [hrouting, if_pos rfl, hhost, ok_bind, hbuf.httpRequestPath_eq url hpath]
    dsimp only
    rw [hothers]
    rfl
  · rw [firstReachable, List.find?_cons_of_pos]
    rw [hport, hreachable]
    rfl

end Resource

/-- **When a request reaches one resource over HTTP/1.1 and HTTP/3.**  The TCP side has to
take the target that `forward` takes, which it does if it reads the same host name; and if it
rewrites the request, the path must have the base path already, if there is one, and be
mounted at the root. -/
theorem same_resource_iff {url : UrlParser} (hurl : url.Standard) {rule : ListenerRule}
    (hrule : rule.IsLoaded url) {authorityHost : Text → Except String Text}
    {reachable : ProxyTarget → Bool} {request : Http3Request} (hpath : IsRequestPath request.path)
    {target : ProxyTarget} {sent authority : Text}
    (hforward : forward authorityHost reachable rule request = .ok (.sent target sent authority))
    {buf : Bytes} {version : Text} (hbuf : IsRequest buf request.method
      (request.path ++ querySuffix request.query) version)
    (clientAddr : SocketAddr) (pending : List Bytes) :
    ((∃ bytes, tcpForward url reachable rule clientAddr buf pending = .ok (target, bytes) ∧
        requestTarget bytes = some sent) ↔
      RoutedTo url reachable rule buf target ∧
        (IsRewritten rule target request.method request.path → KeepsPath target request.path)) ∧
    ∀ host, authorityHost authority = .ok host →
      httpRequestHost url buf = .ok (some (toAsciiLowercase (trimEndMatches '.' host))) →
      RoutedTo url reachable rule buf target := by
  obtain ⟨rfl, hreachable, name, hname, hexplicit, htarget⟩ := forward_eq_sent hforward
  obtain ⟨hbase, hkeeps⟩ := keepsPath_of_route hurl hrule hpath (mem_of_mem_head? htarget)
  constructor
  · have hsent : ∀ targets, requestTarget
        ((⟨clientAddr, targets, buf, pending⟩ : Service).clientToTarget url rule target) =
          some (request.path ++ querySuffix request.query) ↔
        (IsRewritten rule target request.method request.path → KeepsPath target request.path) := by
      intro targets
      by_cases hrewritten : IsRewritten rule target request.method request.path
      · rw [requestTarget_of_rewritten hbase hpath hbuf hrewritten, Option.some.injEq,
          append_left_inj, hkeeps]
        exact ⟨fun h _ => h, fun h => h hrewritten⟩
      · rw [requestTarget_of_not_rewritten hpath hbuf hrewritten]
        exact iff_of_true rfl (fun h => absurd h hrewritten)
    constructor
    · intro ⟨bytes, hforwarded, htargets⟩
      obtain ⟨targets, hroute, hfirst, rfl⟩ :=
        (tcpForward_eq_ok hbuf clientAddr pending).mp hforwarded
      exact ⟨⟨targets, hroute, hfirst⟩, (hsent targets).mp htargets⟩
    · intro ⟨⟨targets, hroute, hfirst⟩, hkept⟩
      exact ⟨_, (tcpForward_eq_ok hbuf clientAddr pending).mpr ⟨targets, hroute, hfirst, rfl⟩,
        (hsent targets).mpr hkept⟩
  · intro host hhost hread
    rw [hname] at hhost
    cases hhost
    exact routedTo_of_host hpath hbuf hexplicit hreachable htarget hread

/-! ### A backend behind both -/

/-- A host name for a backend under some path. -/
def frontRule (path : Text) : ListenerRule :=
  ({ tcp := some 443
     httpMappings :=
      [{ path := "/".toList, hostname := some "backend".toList
         target := some (backendTarget path) }] } : ListenerRule).normalizeTargets backendUrl

def frontTarget (path : Text) : ProxyTarget :=
  mountTarget backendUrl "/".toList (backendTarget path)

def frontRequest : Bytes := toUtf8 "GET /x HTTP/1.1\r\nHost: backend\r\n\r\n".toList

theorem isLoaded_frontRule (path : Text) : (frontRule path).IsLoaded backendUrl :=
  ⟨_, rfl, rfl⟩

theorem isRequest_frontRequest :
    IsRequest frontRequest "GET".toList "/x".toList "HTTP/1.1".toList where
  method_word := by simp [IsWord, isWhitespace]
  target_word := by simp [IsWord, isWhitespace]
  version_word := by simp [IsWord, isWhitespace]
  http1 := rfl
  head := ⟨30, "Host: backend".toList, by decide +kernel, by decide +kernel⟩

/-- A backend under `/app` is asked for `/x` over HTTP/3 and for `/app/x` over HTTP/1.1. -/
theorem two_resources :
    forward .ok (fun _ => true) (frontRule "/app".toList)
        { authority := some "backend".toList, method := "GET".toList, path := "/x".toList } =
      .ok (.sent (frontTarget "/app".toList) "/x".toList "backend".toList) ∧
    httpRequestHost backendUrl frontRequest = .ok (some "backend".toList) ∧
    ∃ bytes, tcpForward backendUrl (fun _ => true) (frontRule "/app".toList) playerAddr
          frontRequest [] = .ok (frontTarget "/app".toList, bytes) ∧
      requestTarget bytes = some "/app/x".toList := by
  refine ⟨rfl, by decide +kernel, _, rfl, ?_⟩
  decide +kernel

/-- A backend without a path is asked for `/x` over both. -/
theorem same_resource_iff_root :
    ∃ bytes, tcpForward backendUrl (fun _ => true) (frontRule "/".toList) playerAddr
          frontRequest [] = .ok (frontTarget "/".toList, bytes) ∧
      requestTarget bytes = some "/x".toList := by
  have hpath : IsRequestPath "/x".toList := ⟨rfl, by decide⟩
  have hforward : forward .ok (fun _ => true) (frontRule "/".toList)
      { authority := some "backend".toList, method := "GET".toList, path := "/x".toList } =
      .ok (.sent (frontTarget "/".toList) "/x".toList "backend".toList) := rfl
  obtain ⟨hiff, hrouted⟩ := same_resource_iff standard_backendUrl (isLoaded_frontRule "/".toList)
    hpath hforward isRequest_frontRequest playerAddr []
  exact hiff.mpr ⟨hrouted _ rfl (by decide +kernel), fun _ => ⟨.inl rfl, rfl⟩⟩

end FerrumProxy
