import FerrumProxy.RewriteRelay

/-!
# Host routers and PROXY headers

A listener with host-name mappings takes the client's identity from the accepted socket only.
Nothing checks for this at one place: a chain that parses is refused, one that does not parse counts
as payload, reading stops at a blank line, which the signature itself starts with, and a head that
is empty has no `Host`.
-/

namespace FerrumProxy

open Wire Str

namespace ListenerRule

/-- The endpoint that answers are rewritten to. -/
def advertise (rule : ListenerRule) : Option (IpAddr × UInt16) :=
  if rule.usesRaknetUdp then none
  else
    match rule.nethernetAdvertiseHost, rule.nethernetAdvertisePort.or rule.udp with
    | some host, some port => some (host, port)
    | _, _ => none

def forwardedProto (rule : ListenerRule) : Text :=
  if rule.https.any (·.enabled) then "https".toList else "http".toList

end ListenerRule

/-- A request for signaling. -/
def isJoinPath (path : Text) : Bool :=
  path == "/v1/join".toList || "/v1/join/".toList.isPrefixOf path

/-- `nethernet_diagnostics::relay`: the bytes it writes while it observes them. -/
def diagnosticsRelay (initial : Bytes) (segments : List Bytes) : Bytes :=
  initial ++ drain (16 * 1024) (segments.flatten.length + 1) segments

/-- The client's half of `copy_bidirectional`. -/
def Service.clientToTarget (url : UrlParser) (rule : ListenerRule) (target : ProxyTarget)
    (service : Service) : Bytes :=
  let diagnostics := rule.nethernetDiagnostics && !rule.usesRaknetUdp
  let rewriteSignaling := rule.advertise.isSome &&
    (httpRequestPath url service.initialPayload).any isJoinPath
  if rewriteSignaling || (diagnostics && target.urlProtocol.isNone) then
    if diagnostics then diagnosticsRelay service.initialPayload service.pending
    else pump service.initialPayload service.pending
  else if target.urlProtocol.isNone then pump service.initialPayload service.pending
  else
    FerrumProxy.clientToTarget url target rule.forwardedProto service.initialPayload
      (reads bufferSize (service.pending.flatten.length + 1) service.pending)

/-- Everything that is sent to a target reached at an address. -/
def Service.sentTo (url : UrlParser) (rule : ListenerRule) (target : ProxyTarget)
    (targetAddr : SocketAddr) (targetPort : UInt16) (service : Service) : Bytes :=
  (if rule.haproxy then
    buildProxyV2Header service.originalClient ⟨targetAddr.ip, targetPort⟩ false
  else []) ++ service.clientToTarget url rule target

/-! ### Bytes that do not start with a signature -/

/-- The bytes hold a whole head, which is not empty. -/
structure NonemptyHead (bytes : Bytes) : Prop where
  complete : (headerEnd bytes).isSome = true
  no_blank : ¬ crlfcrlf <+: bytes

theorem NonemptyHead.not_signature {bytes : Bytes} (h : NonemptyHead bytes) (more : Bytes) :
    ¬ signature <+: bytes ++ more := by
  intro hsignature
  have hblank : crlfcrlf <+: signature := by decide
  obtain ⟨n, hn⟩ := Option.isSome_iff_exists.mp h.complete
  have hlong : crlfcrlf.length ≤ bytes.length :=
    Nat.le_trans (Nat.le_add_left 4 n) (headerEnd_le hn)
  exact h.no_blank (List.prefix_of_prefix_length_le (hblank.trans hsignature)
    (List.prefix_append bytes more) hlong)

theorem not_signature_of_head {bytes : Bytes} (hne : bytes ≠ [])
    (hhead : bytes.head? ≠ some 0x0d) (more : Bytes) : ¬ signature <+: bytes ++ more := by
  intro hsignature
  obtain ⟨rest, hrest⟩ := hsignature
  have hfirst : (bytes ++ more).head? = some 0x0d := by
    rw [← hrest]
    rfl
  rw [List.head?_append_of_ne_nil bytes hne] at hfirst
  exact hhead hfirst

theorem rewriteLines_eq_cons (url : UrlParser) (target : ProxyTarget)
    (forwardedProto method requestTarget version : Text) (lines : List Text) :
    ∃ rest more, rewriteLines url target forwardedProto method requestTarget version lines =
      (method ++ rest) :: more := by
  unfold rewriteLines
  simp only [List.append_assoc]
  split <;> split <;> split <;> (try split) <;> exact ⟨_, _, rfl⟩

theorem rewriteHead_starts {url : UrlParser} {target : ProxyTarget}
    {forwardedProto head rewritten : Text}
    (h : rewriteHead url target forwardedProto head = some rewritten) :
    ∃ c rest, rewritten = c :: rest ∧ isWhitespace c = false := by
  unfold rewriteHead at h
  split at h
  · cases h
  · rename_i requestLine lines _
    split at h
    · rename_i method requestTarget version hwords
      split at h <;> cases h
      obtain ⟨hne, hvisible⟩ := mem_splitWhitespace (s := requestLine) (w := method)
        (by simp [hwords])
      obtain ⟨c, word, rfl⟩ := List.exists_cons_of_ne_nil hne
      obtain ⟨rest, more, hlines⟩ := rewriteLines_eq_cons url target forwardedProto (c :: word)
        requestTarget version lines
      rw [hlines, joinCrlf]
      cases more <;> exact ⟨c, _, rfl, hvisible c List.mem_cons_self⟩
    · cases h

theorem NonemptyHead.not_signature_rewriteChunk {bytes : Bytes} (h : NonemptyHead bytes)
    (url : UrlParser) (target : ProxyTarget) (forwardedProto : Text) (more : Bytes) :
    ¬ signature <+: rewriteChunk url target forwardedProto bytes ++ more := by
  unfold rewriteChunk
  split
  · unfold rewriteHttpRequest
    split
    · exact h.not_signature more
    · split
      · exact h.not_signature more
      · rename_i head hhead
        obtain ⟨c, rest, rfl, hvisible⟩ := rewriteHead_starts hhead
        have hne : toUtf8 (c :: rest) ≠ [] := by
          intro hnil
          simp [toUtf8] at hnil
        rw [List.append_assoc, List.append_assoc, ← List.append_assoc crlfcrlf]
        exact not_signature_of_head hne (toUtf8_head hvisible rest) _
  · exact h.not_signature more

/-! ### Clients of a host router -/

variable {url : UrlParser} {rule : ListenerRule} {clientAddr : SocketAddr} {service : Service}

theorem headRefused_of_blank {stream : Bytes} (h : crlfcrlf <+: stream) :
    HeadRefused url stream := by
  obtain ⟨rest, rfl⟩ := h
  intro host hhost
  have hnone : httpRequestHost url (crlfcrlf ++ rest) = .ok none := rfl
  rw [hnone] at hhost
  cases hhost

/-- A client that a host router serves has been taken for the accepted socket, and its
first bytes do not start with a blank line. -/
theorem serveClient_host_router {firstBuf : Bytes} {pending : List Bytes}
    (hhost : rule.hostRouting = true) (hhead : (headerEnd firstBuf).isSome = true)
    (hserve : serveClient url rule clientAddr firstBuf pending = .ok service) :
    service.originalClient = clientAddr ∧ NonemptyHead service.initialPayload := by
  obtain ⟨hheaders, targets, hroute, rfl⟩ := serveClient_eq_ok.mp hserve
  have hnone := incomingChain_of_headers_nil (hheaders hhost)
  rw [receiveStream_of_none hnone] at hroute ⊢
  exact ⟨rfl, hhead,
    fun hblank => not_headRefused_of_route hhost hroute (headRefused_of_blank hblank)⟩

/-- Whichever way the client's bytes go to the target, no signature comes first. -/
theorem NonemptyHead.not_signature_clientToTarget (h : NonemptyHead service.initialPayload)
    (url : UrlParser) (rule : ListenerRule) (target : ProxyTarget) :
    ¬ signature <+: service.clientToTarget url rule target := by
  unfold Service.clientToTarget
  dsimp only
  split
  · split <;> exact h.not_signature _
  · split
    · exact h.not_signature _
    · rename_i hurl
      have hsome : target.urlProtocol.isSome = true := by
        simpa [Option.isSome_iff_ne_none] using hurl
      obtain ⟨n, hn⟩ := Option.isSome_iff_exists.mp h.complete
      rw [clientToTarget_eq hsome, relayFrom_head hn]
      exact h.not_signature_rewriteChunk url target rule.forwardedProto _

/-- **A host router cannot be fed an identity.**  Whatever the client sends and however
it is split, if the client is served then the header written to a target names the
accepted socket, the bytes behind it do not start with a signature, and so a backend
that parses PROXY headers finds that one and no other. -/
theorem host_router_identity (url : UrlParser) (rule : ListenerRule) (clientAddr : SocketAddr)
    (hhost : rule.hostRouting = true) {stream : Bytes} {segments : List Bytes}
    (hsplit : IsSplit stream segments) {service : Service}
    (hserve : handleClient url rule clientAddr segments = .ok (some service))
    (target : ProxyTarget) (targetAddr : SocketAddr) (targetPort : UInt16) :
    service.sentTo url rule target targetAddr targetPort =
      (if rule.haproxy then buildProxyV2Header clientAddr ⟨targetAddr.ip, targetPort⟩ false
        else []) ++ service.clientToTarget url rule target ∧
    ¬ signature <+: service.clientToTarget url rule target ∧
    parseProxyChain (service.sentTo url rule target targetAddr targetPort) =
      .ok (if rule.haproxy then
        ⟨[(⟨clientAddr, ⟨targetAddr.ip, targetPort⟩, false⟩ : Hop).header],
          (buildProxyV2Header clientAddr ⟨targetAddr.ip, targetPort⟩ false).length⟩
        else ⟨[], 0⟩) := by
  have hserved : served url rule clientAddr segments = some service := by rw [served, hserve]
  obtain ⟨-, line, head, hline, hhead, hserve⟩ := served_eq_some.mp hserved
  obtain ⟨hreading, -⟩ := awaitRequestLine_ok (reading_first hsplit) hline
  obtain ⟨-, hcomplete⟩ := awaitRoutingHead_ok hreading hhead
  have hmappings : rule.httpMappings ≠ [] := by
    intro hnil
    rw [ListenerRule.hostRouting, hnil] at hhost
    cases hhost
  obtain ⟨hclient, hplain⟩ := serveClient_host_router hhost (hcomplete hmappings) hserve
  have hsignature := hplain.not_signature_clientToTarget url rule target
  refine ⟨by rw [Service.sentTo, hclient], hsignature, ?_⟩
  rw [Service.sentTo, hclient]
  split
  · have hchain := parseProxyChain_build [⟨clientAddr, ⟨targetAddr.ip, targetPort⟩, false⟩]
      (service.clientToTarget url rule target) (.inr hsignature)
    simpa [Hop.wire] using hchain
  · exact parseProxyChain_payload (.inr hsignature)

/-- A parser that knows one host. -/
def shareUrl : UrlParser where
  parse text :=
    if text = "http://share/".toList then
      some ⟨"http".toList, some "share".toList, none, "/".toList, none, text⟩
    else none
  host_not_absolute := by
    intro text host u hparse hhost
    split at hparse <;> cases hparse
    cases hhost
    decide

/-- A router with one host name, whose backend expects a PROXY header. -/
def shareRule : ListenerRule where
  tcp := some 80
  haproxy := true
  httpMappings := [{ hostname := some "share".toList, path := "/".toList, target := some urlTarget }]

/-- A request in two parts. -/
def shareRequest : List Bytes :=
  [toUtf8 "GET / HTTP/1.1\r\nHo".toList, toUtf8 "st: share\r\n\r\n".toList]

/-- The request is served, and its backend finds one header. -/
theorem host_router_identity_served :
    ∃ service, handleClient shareUrl shareRule playerAddr shareRequest = .ok (some service) ∧
      ¬ signature <+: service.clientToTarget shareUrl shareRule urlTarget := by
  have hsplit : IsSplit shareRequest.flatten shareRequest := ⟨rfl, by decide +kernel⟩
  exact ⟨_, rfl, (host_router_identity shareUrl shareRule playerAddr rfl hsplit rfl urlTarget
    relayAddr 80).2.1⟩

end FerrumProxy
