import FerrumProxy.TcpClient

/-!
# Does the segmentation of a stream matter?

Three places of `handle_client` look at whatever the reads happened to return: the PROXY chain is
parsed from it, and the two waiting loops give up on a long one.
-/

namespace FerrumProxy

open Wire

variable (url : UrlParser) (rule : ListenerRule) (clientAddr : SocketAddr)

/-- The service a client gets, if any. -/
def served (segments : List Bytes) : Option Service :=
  match handleClient url rule clientAddr segments with
  | .ok service => service
  | .error _ => none

/-- Both clients are turned away, or both are served with the same identity,
targets and bytes. -/
def SameService : Option Service → Option Service → Prop
  | none, none => True
  | some a, some b =>
    a.originalClient = b.originalClient ∧ a.targets = b.targets ∧
      ∀ targetAddr targetPort,
        a.bytesToTarget rule targetAddr targetPort = b.bytesToTarget rule targetAddr targetPort
  | _, _ => False

/-- Every two splits of the stream are served alike. -/
def SegmentationIndependent (stream : Bytes) : Prop :=
  ∀ segments₁ segments₂, IsSplit stream segments₁ → IsSplit stream segments₂ →
    SameService rule (served url rule clientAddr segments₁) (served url rule clientAddr segments₂)

/-- A host router has no use for the head of the stream. -/
def HeadRefused (stream : Bytes) : Prop :=
  ∀ host, httpRequestHost url stream = .ok (some host) → httpRequestPath url stream = none

/-- The client is turned away on every split: no request head or no request
line comes in the largest first read, or a host router refuses the head. -/
def RefusedAnyway (stream : Bytes) : Prop :=
  (rule.httpMappings ≠ [] ∧ headerEnd (stream.take bufferSize) = none) ∨
    (rule.advertises = true ∧ (∃ method ∈ signalingMethods, method <+: stream) ∧
      4096 ≤ stream.length ∧ 0x0a ∉ stream.take bufferSize) ∨
    (rule.hostRouting = true ∧ HeadRefused url stream)

/-- No read can be told from another: the stream starts with no PROXY header,
its request head is short enough, and so is its request line where it could be
a signaling request. -/
structure Settled (stream : Bytes) : Prop where
  no_header : rule.hostRouting = false → ∀ b : ProxyBlock, ¬ b.wire <+: stream
  short_head : rule.httpMappings ≠ [] → ∃ n, headerEnd stream = some n ∧ n + 4 ≤ 32768
  short_line : rule.advertises = true →
    (stream.head? = some 0x47 ∨ stream.head? = some 0x50) →
    0x0a ∈ stream.take 4096 ∨ stream.length < 4096

/-! ### Prefixes without a chain -/

variable {url rule clientAddr} {stream buf firstBuf p : Bytes} {len : Nat} {targets : List ProxyTarget}
  {segments rest : List Bytes} {service : Service}

open List

theorem incomingChain_none (hbuf : buf <+: stream) (hnone : ∀ b : ProxyBlock, ¬ b.wire <+: stream) :
    incomingChain buf = ⟨[], 0⟩ := by
  by_cases hchain : IsChain buf
  · obtain ⟨blocks, payload, rfl, hpayload⟩ := hchain
    cases blocks with
    | nil =>
      rw [incomingChain_of_blocks [] hpayload]
      rfl
    | cons b blocks =>
      rw [flatMap_cons, append_assoc] at hbuf
      exact absurd ((prefix_append _ _).trans hbuf) (hnone b)
  · exact incomingChain_of_not_isChain hchain

/-- Without headers nothing is cut off. -/
theorem incomingChain_of_headers_nil (h : (incomingChain buf).headers = []) :
    incomingChain buf = ⟨[], 0⟩ := by
  by_cases hchain : IsChain buf
  · obtain ⟨blocks, payload, rfl, hpayload⟩ := hchain
    rw [incomingChain_of_blocks blocks hpayload] at h ⊢
    rw [map_eq_nil_iff.mp h]
    rfl
  · exact incomingChain_of_not_isChain hchain

theorem receiveStream_of_none (h : incomingChain buf = ⟨[], 0⟩) :
    receiveStream clientAddr buf = ⟨clientAddr, buf⟩ := by
  unfold receiveStream
  rw [h]
  rfl

/-- A host router finds no host in a stream that starts with a signature: the
signature starts with a blank line. -/
theorem headRefused_of_signature (h : signature <+: stream) : HeadRefused url stream := by
  obtain ⟨rest, rfl⟩ := h
  intro host hhost
  have hnone : httpRequestHost url (signature ++ rest) = .ok none := rfl
  rw [hnone] at hhost
  cases hhost

/-! ### Routing looks at the head only -/

theorem routeRequest_no_mappings (h : rule.httpMappings = []) (payload : Bytes) :
    routeRequest url rule payload = .ok (rule.targetsFor .tcp) := by
  have hhost : rule.hostRouting = false := by
    rw [ListenerRule.hostRouting, h]
    rfl
  have hmapped : ∀ path host, rule.httpTargetsForRequest .tcp path host = [] := by
    intro path host
    unfold ListenerRule.httpTargetsForRequest
    cases path with
    | none => rfl
    | some p => rw [h]; rfl
  unfold routeRequest
  rw [hhost]
  simp only [hmapped]
  rfl

/-- Any two prefixes that contain the head are routed alike. -/
theorem routeRequest_take
    (h : rule.httpMappings ≠ [] → (headerEnd (stream.take len)).isSome = true) :
    routeRequest url rule (stream.take len) = routeRequest url rule stream := by
  by_cases hmappings : rule.httpMappings = []
  · rw [routeRequest_no_mappings hmappings, routeRequest_no_mappings hmappings]
  · obtain ⟨n, hn⟩ := Option.isSome_iff_exists.mp (h hmappings)
    obtain ⟨hhead, hlen⟩ := (headerEnd_take stream len n).mp hn
    unfold routeRequest
    rw [httpRequestHost_take url hhead hlen, httpRequestPath_take url hhead hlen]

theorem not_headRefused_of_route (hhost : rule.hostRouting = true)
    (hok : routeRequest url rule stream = .ok targets) : ¬ HeadRefused url stream := by
  intro hrefused
  unfold routeRequest at hok
  rw [hhost] at hok
  obtain ⟨requestHost, hrequest, hok⟩ := bind_eq_ok.mp hok
  obtain ⟨_, hensure, _⟩ := bind_eq_ok.mp hok
  rw [ensure_eq_ok] at hensure
  simp only [Bool.not_true, Bool.false_or, Bool.and_eq_true] at hensure
  obtain ⟨host, rfl⟩ := Option.isSome_iff_exists.mp hensure.1
  have hpath := hrefused host hrequest
  rw [hpath] at hensure
  cases hensure.2

/-! ### A client that is served -/

/-- A client is served after both waits. -/
theorem served_eq_some :
    served url rule clientAddr segments = some service ↔
      (readSegment bufferSize segments).1 ≠ [] ∧ ∃ line head,
        awaitRequestLine rule (readSegment bufferSize segments).1
          (readSegment bufferSize segments).2 = .ok line ∧
        awaitRoutingHead rule line.1 line.2 = .ok head ∧
        serveClient url rule clientAddr head.1 head.2 = .ok service := by
  have hopen : ∀ r : Except String (Option Service),
      (match r with | .ok service => service | .error _ => none) = some service ↔
        r = .ok (some service) := by
    intro r
    cases r <;> simp
  unfold served
  rw [hopen]
  unfold handleClient
  split
  · rename_i heq
    simp [heq]
  · rename_i firstBuf rest hne heq
    rw [heq]
    simp only [bind_eq_ok]
    constructor
    · intro h
      obtain ⟨line, hline, head, hhead, service', hserve, hok⟩ := h
      cases hok
      exact ⟨hne, line, head, hline, hhead, hserve⟩
    · intro h
      obtain ⟨_, line, head, hline, hhead, hserve⟩ := h
      exact ⟨line, hline, head, hhead, service, hserve, rfl⟩

/-- A host router serves no PROXY header; the request has a route. -/
theorem serveClient_eq_ok {pending : List Bytes} :
    serveClient url rule clientAddr firstBuf pending = .ok service ↔
      (rule.hostRouting = true → (incomingChain firstBuf).headers = []) ∧ ∃ targets,
        routeRequest url rule (receiveStream clientAddr firstBuf).payload = .ok targets ∧
        service = ⟨(receiveStream clientAddr firstBuf).originalClient, targets,
          (receiveStream clientAddr firstBuf).payload, pending⟩ := by
  have hguard : ensure (!rule.hostRouting || (incomingChain firstBuf).headers.isEmpty)
      "incoming PROXY is not accepted on HTTP host routers" = .ok () ↔
        (rule.hostRouting = true → (incomingChain firstBuf).headers = []) := by
    rw [ensure_eq_ok]
    cases rule.hostRouting <;> simp
  unfold serveClient
  simp only [bind_eq_ok]
  constructor
  · intro h
    obtain ⟨_, hhost, targets, hroute, hok⟩ := h
    cases hok
    exact ⟨hguard.mp hhost, targets, hroute, rfl⟩
  · intro h
    obtain ⟨hhost, targets, hroute, rfl⟩ := h
    exact ⟨(), hguard.mpr hhost, targets, hroute, rfl⟩

theorem serveClient_of_none (hreading : Reading stream firstBuf rest)
    (hhead : rule.httpMappings ≠ [] → (headerEnd firstBuf).isSome = true)
    (hnone : incomingChain firstBuf = ⟨[], 0⟩)
    (hok : serveClient url rule clientAddr firstBuf rest = .ok service) :
    service.originalClient = clientAddr ∧ routeRequest url rule stream = .ok service.targets ∧
      pump service.initialPayload service.pending = stream := by
  obtain ⟨_, targets, hroute, rfl⟩ := serveClient_eq_ok.mp hok
  rw [receiveStream_of_none hnone] at hroute ⊢
  rw [hreading.eq_take] at hhead
  refine ⟨rfl, ?_, ?_⟩
  · rw [← hroute]
    conv_rhs => rw [hreading.eq_take]
    exact (routeRequest_take hhead).symm
  · exact pump_eq hreading 0 (Nat.zero_le _)

/-! ### Clients that are refused on every split -/

/-- A blank line in a prefix is one of every longer prefix. -/
theorem headerEnd_of_shorter (hp : p <+: stream) (hlen : p.length ≤ len)
    (hnone : headerEnd (stream.take len) = none) : headerEnd p = none := by
  cases hhead : headerEnd p with
  | none => rfl
  | some n =>
    rw [prefix_iff_eq_take.mp hp] at hhead
    obtain ⟨hstream, hn⟩ := (headerEnd_take stream p.length n).mp hhead
    rw [(headerEnd_take stream len n).mpr ⟨hstream, by omega⟩] at hnone
    cases hnone

theorem newline_of_shorter (hp : p <+: stream) (hlen : p.length ≤ len)
    (hnone : (0x0a : UInt8) ∉ stream.take len) : p.contains (0x0a : UInt8) = false := by
  have hsub : p <+: stream.take len := prefix_take_iff.mpr ⟨hp, hlen⟩
  rw [contains_eq_mem, decide_eq_false_iff_not]
  exact fun hmem => hnone (hsub.subset hmem)

/-- Every prefix of a stream that starts with a signaling method looks like a
signaling request. -/
theorem looksLikeSignaling_of_method {method : Bytes} (hmethod : method ∈ signalingMethods)
    (hstream : method <+: stream) (hp : p <+: stream) : looksLikeSignaling p = true := by
  unfold looksLikeSignaling
  rw [List.any_eq_true]
  refine ⟨method, hmethod, ?_⟩
  rw [Bool.or_eq_true, isPrefixOf_iff_prefix, isPrefixOf_iff_prefix]
  exact prefix_or_prefix_of_prefix hstream hp

/-- What is read before the request head fits in one buffer. -/
theorem awaitRequestLine_length {rule : ListenerRule} (hreading : Reading stream firstBuf rest)
    {r : Bytes × List Bytes} (bound chunk : Nat) (hreach : 4096 + chunk ≤ bound + 1)
    (hchunk : 4096 ≤ chunk ∨ ∀ s ∈ rest, s.length ≤ chunk) (hfirst : firstBuf.length ≤ bound)
    (hok : awaitRequestLine rule firstBuf rest = .ok r) :
    r.1.length ≤ bound ∧ (4096 ≤ chunk ∨ ∀ s ∈ r.2, s.length ≤ chunk) := by
  unfold awaitRequestLine at hok
  split at hok
  · exact readUntil_bounded (by omega) (Nat.lt_succ_self _) hreading.rest_nonempty hreach hchunk
      hfirst hok
  · cases hok
    exact ⟨hfirst, hchunk⟩

/-- No head within reach: the second loop gives up. -/
theorem awaitRoutingHead_fails {rule : ListenerRule} (hmappings : rule.httpMappings ≠ [])
    (hreading : Reading stream firstBuf rest) (bound chunk : Nat)
    (hreach : 32768 + chunk ≤ bound + 1) (hchunk : 4096 ≤ chunk ∨ ∀ s ∈ rest, s.length ≤ chunk)
    (hfirst : firstBuf.length ≤ bound) (hnone : headerEnd (stream.take bound) = none) :
    ∃ e, awaitRoutingHead rule firstBuf rest = .error e := by
  unfold awaitRoutingHead
  rw [if_neg (by simpa using hmappings)]
  refine readUntil_fails (by omega) (Nat.lt_succ_self _) hreading.rest_nonempty
    hreading.stream_eq ?_ hreach (Or.inl (by simp)) hchunk hfirst
  intro p hp hlen
  rw [headerEnd_of_shorter hp hlen hnone]
  rfl

/-- No line end within reach: the first loop gives up. -/
theorem awaitRequestLine_fails {rule : ListenerRule} (hadvertises : rule.advertises = true)
    (hlooks : looksLikeSignaling firstBuf = true) (hreading : Reading stream firstBuf rest)
    (bound chunk : Nat) (hreach : 4096 + chunk ≤ bound + 1)
    (hchunk : 4096 ≤ chunk ∨ ∀ s ∈ rest, s.length ≤ chunk) (hfirst : firstBuf.length ≤ bound)
    (hlong : 4096 ≤ stream.length) (hnone : (0x0a : UInt8) ∉ stream.take bound) :
    ∃ e, awaitRequestLine rule firstBuf rest = .error e := by
  unfold awaitRequestLine
  rw [if_pos (by rw [hadvertises, hlooks]; rfl)]
  exact readUntil_fails (by omega) (Nat.lt_succ_self _) hreading.rest_nonempty hreading.stream_eq
    (fun p hp hlen => newline_of_shorter hp hlen hnone) hreach (Or.inr hlong) hchunk hfirst

/-- Such a stream is refused in any segments. -/
theorem served_none_of_refused (hsplit : IsSplit stream segments)
    (hrefused : RefusedAnyway url rule stream) : served url rule clientAddr segments = none := by
  by_contra hsome
  obtain ⟨service, hservice⟩ := Option.ne_none_iff_exists'.mp hsome
  obtain ⟨hfirst, line, head, hline, hhead, hserve⟩ :=
    served_eq_some.mp hservice
  have hreading := reading_first hsplit
  have hlength := readSegment_length_le bufferSize segments
  obtain ⟨hreading', _⟩ := awaitRequestLine_ok hreading hline
  rcases hrefused with ⟨hmappings, hnone⟩ | ⟨hadvertises, ⟨method, hmethod, hstarts⟩, hlong, hnone⟩ |
    ⟨hhost, hrefused⟩
  · -- no head comes with the largest first read, and later reads stop at the limit
    have hbound := awaitRequestLine_length hreading bufferSize 4096 (by decide)
      (Or.inl (Nat.le_refl _)) hlength hline
    obtain ⟨e, he⟩ := awaitRoutingHead_fails hmappings hreading' bufferSize 4096 (by decide)
      (Or.inl (Nat.le_refl _)) hbound.1 hnone
    rw [he] at hhead
    cases hhead
  · obtain ⟨e, he⟩ := awaitRequestLine_fails hadvertises
      (looksLikeSignaling_of_method hmethod hstarts hreading.starts) hreading bufferSize 4096
      (by decide) (Or.inl (Nat.le_refl _)) hlength hlong hnone
    rw [he] at hline
    cases hline
  · obtain ⟨hreading'', hcomplete⟩ := awaitRoutingHead_ok hreading' hhead
    have hheaders := (serveClient_eq_ok.mp hserve).1 hhost
    have hroute := (serveClient_of_none hreading'' hcomplete
      (incomingChain_of_headers_nil hheaders) hserve).2.1
    exact not_headRefused_of_route hhost hroute hrefused

/-! ### Streams on which every split is served alike -/

theorem head_of_looksLikeSignaling (hne : p ≠ []) (h : looksLikeSignaling p = true) :
    p.head? = some 0x47 ∨ p.head? = some 0x50 := by
  obtain ⟨c, t, rfl⟩ := exists_cons_of_ne_nil hne
  simp only [looksLikeSignaling, signalingMethods, any_cons, any_nil, Bool.or_false,
    Bool.or_eq_true, isPrefixOf, Bool.and_eq_true, beq_iff_eq] at h
  simp only [List.head?_cons, Option.some.injEq]
  grind

theorem head_of_starts (hne : p ≠ []) (hp : p <+: stream) : stream.head? = p.head? := by
  obtain ⟨t, rfl⟩ := hp
  obtain ⟨c, p, rfl⟩ := exists_cons_of_ne_nil hne
  rfl

/-- The wait for a line does not time out. -/
theorem awaitRequestLine_succeeds {rule : ListenerRule} (hsettled : Settled rule stream)
    (hreading : Reading stream firstBuf rest) (hne : firstBuf ≠ []) :
    ∃ r, awaitRequestLine rule firstBuf rest = .ok r := by
  unfold awaitRequestLine
  by_cases hwait : (rule.advertises && looksLikeSignaling firstBuf) = true
  · rw [if_pos hwait]
    obtain ⟨hadvertises, hlooks⟩ := Bool.and_eq_true_iff.mp hwait
    have hhead := head_of_looksLikeSignaling hne hlooks
    rw [← head_of_starts hne hreading.starts] at hhead
    refine readUntil_succeeds (by omega) (Nat.lt_succ_self _) hreading.rest_nonempty
      hreading.stream_eq ?_ (Or.inl rfl)
    intro p hp hlen
    rcases hsettled.short_line hadvertises hhead with hmem | hshort
    · have hsub : stream.take 4096 <+: p :=
        prefix_of_prefix_length_le (List.take_prefix _ _) hp ((length_take_le _ _).trans hlen)
      rw [contains_eq_mem, decide_eq_true_eq]
      exact hsub.subset hmem
    · have := hp.length_le
      omega
  · rw [if_neg hwait]
    exact ⟨_, rfl⟩

/-- Nor does the wait for a head. -/
theorem awaitRoutingHead_succeeds {rule : ListenerRule} (hsettled : Settled rule stream)
    (hreading : Reading stream firstBuf rest) :
    ∃ r, awaitRoutingHead rule firstBuf rest = .ok r := by
  unfold awaitRoutingHead
  by_cases hmappings : rule.httpMappings = []
  · rw [hmappings]
    exact ⟨_, rfl⟩
  · rw [if_neg (by simpa using hmappings)]
    obtain ⟨n, hn, hshort⟩ := hsettled.short_head hmappings
    refine readUntil_succeeds (by omega) (Nat.lt_succ_self _) hreading.rest_nonempty
      hreading.stream_eq ?_ (Or.inr (by rw [hn]; rfl))
    intro p hp hlen
    rw [prefix_iff_eq_take.mp hp, (headerEnd_take stream p.length n).mpr ⟨hn, by omega⟩]
    rfl

variable (url clientAddr) in
/-- On a settled stream whose prefixes hold no chain, the outcome is that of the
whole stream. -/
theorem served_of_settled (hsettled : Settled rule stream) (hsplit : IsSplit stream segments)
    (hstream : stream ≠ []) (hnone : ∀ p, p <+: stream → incomingChain p = ⟨[], 0⟩) :
    match routeRequest url rule stream with
    | .error _ => served url rule clientAddr segments = none
    | .ok targets => ∃ service, served url rule clientAddr segments = some service ∧
        service.originalClient = clientAddr ∧ service.targets = targets ∧
        pump service.initialPayload service.pending = stream := by
  have hreading := reading_first hsplit
  have hfirst : (readSegment bufferSize segments).1 ≠ [] := by
    intro hnil
    have hsegments := readSegment_eq_nil (by decide) hsplit.nonempty hnil
    rw [← hsplit.flatten, hsegments] at hstream
    exact hstream rfl
  obtain ⟨line, hline⟩ := awaitRequestLine_succeeds hsettled hreading hfirst
  obtain ⟨hreading', _⟩ := awaitRequestLine_ok hreading hline
  obtain ⟨head, hhead⟩ := awaitRoutingHead_succeeds hsettled hreading'
  obtain ⟨hreading'', hcomplete⟩ := awaitRoutingHead_ok hreading' hhead
  have hchain := hnone head.1 hreading''.starts
  have hserved : ∀ service, served url rule clientAddr segments = some service →
      service.originalClient = clientAddr ∧
        routeRequest url rule stream = .ok service.targets ∧
        pump service.initialPayload service.pending = stream := by
    intro service hservice
    obtain ⟨_, line', head', hline', hhead', hserve⟩ :=
      served_eq_some.mp hservice
    rw [hline] at hline'
    cases hline'
    rw [hhead] at hhead'
    cases hhead'
    exact serveClient_of_none hreading'' hcomplete hchain hserve
  cases hroute : routeRequest url rule stream with
  | error e =>
    cases hresult : served url rule clientAddr segments with
    | none => rfl
    | some service =>
      have hok := (hserved service hresult).2.1
      rw [hroute] at hok
      cases hok
  | ok targets =>
    have hpayload : receiveStream clientAddr head.1 = ⟨clientAddr, head.1⟩ :=
      receiveStream_of_none hchain
    have hroute' : routeRequest url rule head.1 = .ok targets := by
      rw [hreading''.eq_take] at hcomplete ⊢
      rw [routeRequest_take hcomplete, hroute]
    have hservice : served url rule clientAddr segments =
        some ⟨clientAddr, targets, head.1, head.2⟩ := by
      apply served_eq_some.mpr
      refine ⟨hfirst, line, head, hline, hhead, ?_⟩
      apply serveClient_eq_ok.mpr
      rw [hpayload]
      exact ⟨fun _ => by rw [hchain], targets, hroute', rfl⟩
    obtain ⟨hclient, _, hpump⟩ := hserved _ hservice
    exact ⟨_, hservice, hclient, rfl, hpump⟩

theorem sameService_of_eq {a b : Service} (hclient : a.originalClient = b.originalClient)
    (htargets : a.targets = b.targets)
    (hpump : pump a.initialPayload a.pending = pump b.initialPayload b.pending) :
    SameService rule (some a) (some b) := by
  refine ⟨hclient, htargets, fun targetAddr targetPort => ?_⟩
  rw [Service.bytesToTarget, Service.bytesToTarget, hclient, hpump]

/-- A settled stream that is not refused. -/
theorem independent_of_settled (hsettled : Settled rule stream)
    (hserved : ¬ RefusedAnyway url rule stream) :
    SegmentationIndependent url rule clientAddr stream := by
  intro segments₁ segments₂ hsplit₁ hsplit₂
  by_cases hstream : stream = []
  · -- nothing to read: the listener closes
    have hclosed : ∀ segments, IsSplit stream segments →
        served url rule clientAddr segments = none := by
      intro segments hsplit
      cases segments with
      | nil => rfl
      | cons s rest =>
        have hflat := hsplit.flatten
        rw [hstream, flatten_cons] at hflat
        exact absurd (append_eq_nil_iff.mp hflat).1 (hsplit.nonempty s mem_cons_self)
    rw [hclosed _ hsplit₁, hclosed _ hsplit₂]
    exact trivial
  have hnone : ∀ p, p <+: stream → incomingChain p = ⟨[], 0⟩ := by
    intro p hp
    refine incomingChain_none hp (fun b hb => ?_)
    cases hhost : rule.hostRouting with
    | false => exact hsettled.no_header hhost b hb
    | true =>
      have hsignature : signature <+: stream := (prefix_append _ _).trans hb
      exact hserved (Or.inr (Or.inr ⟨hhost, headRefused_of_signature hsignature⟩))
  have h₁ := served_of_settled url clientAddr hsettled hsplit₁ hstream hnone
  have h₂ := served_of_settled url clientAddr hsettled hsplit₂ hstream hnone
  cases hroute : routeRequest url rule stream with
  | error e =>
    rw [hroute] at h₁ h₂
    rw [h₁, h₂]
    exact trivial
  | ok targets =>
    rw [hroute] at h₁ h₂
    obtain ⟨a, ha, haclient, hatargets, hapump⟩ := h₁
    obtain ⟨b, hb, hbclient, hbtargets, hbpump⟩ := h₂
    rw [ha, hb]
    exact sameService_of_eq (haclient.trans hbclient.symm)
      (hatargets.trans hbtargets.symm) (hapump.trans hbpump.symm)

/-! ### Two particular splits -/

/-- The first read returns exactly `len` bytes. -/
def cutAt (len : Nat) (stream : Bytes) : List Bytes :=
  [stream.take len, stream.drop len].filter (fun s => !s.isEmpty)

/-- Every read returns one byte. -/
def bytewise (stream : Bytes) : List Bytes :=
  stream.map (fun b => [b])

theorem isSplit_cutAt (len : Nat) (stream : Bytes) : IsSplit stream (cutAt len stream) where
  flatten := by
    unfold cutAt
    rw [flatten_filter_not_isEmpty]
    simp
  nonempty := by
    intro s hs
    unfold cutAt at hs
    simpa using (mem_filter.mp hs).2

theorem isSplit_bytewise (stream : Bytes) : IsSplit stream (bytewise stream) where
  flatten := by
    unfold bytewise
    induction stream with
    | nil => rfl
    | cons b rest ih => rw [map_cons, flatten_cons, ih]; rfl
  nonempty := by
    intro s hs
    obtain ⟨b, _, rfl⟩ := List.mem_map.mp hs
    exact cons_ne_nil b []

theorem take_ne_nil (hpos : 0 < len) (hne : stream ≠ []) : stream.take len ≠ [] := by
  rw [Ne, take_eq_nil_iff]
  intro h
  rcases h with hzero | hnil
  · omega
  · exact hne hnil

theorem readSegment_cutAt (hpos : 0 < len) (hlen : len ≤ bufferSize) (hne : stream ≠ []) :
    ∃ rest, readSegment bufferSize (cutAt len stream) =
      (stream.take len, rest) := by
  have htake : (!(stream.take len).isEmpty) = true := by
    rw [Bool.not_eq_true', isEmpty_eq_false_iff]
    exact take_ne_nil hpos hne
  unfold cutAt
  rw [filter_cons, if_pos htake]
  unfold readSegment
  dsimp only
  rw [take_of_length_le ((length_take_le len stream).trans hlen)]
  exact ⟨_, rfl⟩

theorem readSegment_bytewise (c : UInt8) (rest : Bytes) :
    readSegment bufferSize (bytewise (c :: rest)) = ([c], bytewise rest) := rfl

theorem bytewise_bounded (stream : Bytes) : ∀ s ∈ bytewise stream, s.length ≤ 1 := by
  intro s hs
  obtain ⟨b, _, rfl⟩ := List.mem_map.mp hs
  exact Nat.le_refl 1

/-! ### Streams on which the split matters -/

/-- A client whose first read already ends both waits. -/
theorem served_cutAt (hpos : 0 < len) (hlen : len ≤ bufferSize) (hne : stream ≠ [])
    (hline : (rule.advertises && looksLikeSignaling (stream.take len)) = true →
      (0x0a : UInt8) ∈ stream.take len ∨ stream.length ≤ len ∧ stream.length < 4096)
    (hhead : rule.httpMappings ≠ [] → (headerEnd (stream.take len)).isSome = true)
    (hhost : rule.hostRouting = true → (incomingChain (stream.take len)).headers = [])
    (hroute : routeRequest url rule (receiveStream clientAddr (stream.take len)).payload =
      .ok targets) :
    ∃ service, served url rule clientAddr (cutAt len stream) = some service ∧
      service.originalClient = (receiveStream clientAddr (stream.take len)).originalClient ∧
      pump service.initialPayload service.pending =
        stream.drop (incomingChain (stream.take len)).payloadOffset := by
  obtain ⟨rest, hread⟩ := readSegment_cutAt hpos hlen hne
  have hreading := reading_first (isSplit_cutAt len stream)
  rw [hread] at hreading
  have hrest : stream.length ≤ len → rest = [] := by
    intro hall
    have hflat := hreading.stream_eq
    rw [take_of_length_le hall] at hflat
    have hnil : rest.flatten = [] := by simpa using hflat
    rw [flatten_eq_nil_iff] at hnil
    exact eq_nil_iff_forall_not_mem.mpr (fun s hs => hreading.rest_nonempty s hs (hnil s hs))
  have hwaited : awaitRequestLine rule (stream.take len) rest = .ok (stream.take len, rest) := by
    unfold awaitRequestLine
    by_cases hwait : (rule.advertises && looksLikeSignaling (stream.take len)) = true
    · rw [if_pos hwait]
      by_cases hmem : (stream.take len).contains (0x0a : UInt8) = true
      · rw [readUntil, if_pos hmem]
      · rcases hline hwait with h | ⟨hall, hshort⟩
        · exact absurd (by rw [contains_eq_mem, decide_eq_true_eq]; exact h) hmem
        · rw [hrest hall, readUntil_end (by simpa using hmem)
            (lt_of_le_of_lt (length_take_le' len stream) hshort)]
    · rw [if_neg hwait]
  have hheaded : awaitRoutingHead rule (stream.take len) rest = .ok (stream.take len, rest) := by
    unfold awaitRoutingHead
    by_cases hmappings : rule.httpMappings = []
    · rw [hmappings]
      rfl
    · rw [if_neg (by simpa using hmappings), readUntil, if_pos (hhead hmappings)]
  refine ⟨⟨(receiveStream clientAddr (stream.take len)).originalClient, targets,
    (receiveStream clientAddr (stream.take len)).payload, rest⟩, ?_, rfl,
    pump_eq hreading _ (payloadOffset_le _)⟩
  apply served_eq_some.mpr
  rw [hread]
  exact ⟨take_ne_nil hpos hne, _, _, hwaited, hheaded,
    serveClient_eq_ok.mpr ⟨hhost, targets, hroute, rfl⟩⟩

theorem routeRequest_ok (hhost : rule.hostRouting = false) (payload : Bytes) :
    ∃ targets, routeRequest url rule payload = .ok targets := by
  unfold routeRequest
  rw [hhost]
  exact ⟨_, rfl⟩

theorem routeRequest_ok_of_head (hhost : rule.hostRouting = true)
    (hhead : ¬ HeadRefused url stream) : ∃ targets, routeRequest url rule stream = .ok targets := by
  obtain ⟨host, hrequest, hpath⟩ : ∃ host, httpRequestHost url stream = .ok (some host) ∧
      httpRequestPath url stream ≠ none := by
    by_contra hnone
    exact hhead (fun host hok => by_contra fun hpath => hnone ⟨host, hok, hpath⟩)
  obtain ⟨path, hpath⟩ := Option.ne_none_iff_exists'.mp hpath
  unfold routeRequest
  rw [hhost, if_pos rfl, hrequest, hpath]
  exact ⟨_, rfl⟩

theorem method_of_looksLikeSignaling (hlong : 4 < p.length) (h : looksLikeSignaling p = true) :
    ∃ method ∈ signalingMethods, method <+: p := by
  unfold looksLikeSignaling at h
  rw [List.any_eq_true] at h
  obtain ⟨method, hmethod, hor⟩ := h
  rw [Bool.or_eq_true, isPrefixOf_iff_prefix, isPrefixOf_iff_prefix] at hor
  have hshort : ∀ m ∈ signalingMethods, m.length ≤ 4 := by decide
  rcases hor with hstarts | hinside
  · exact ⟨method, hmethod, hstarts⟩
  · have hle := hinside.length_le
    have := hshort method hmethod
    omega

/-- **A PROXY header makes a difference**: it counts only if the first read
returns all of it. -/
theorem dependent_of_header {b : ProxyBlock} (hhost : rule.hostRouting = false)
    (hb : b.wire <+: stream) : ¬ SegmentationIndependent url rule clientAddr stream := by
  intro hsame
  have hne : stream ≠ [] := by
    intro hnil
    have hlen := hb.length_le
    rw [hnil, b.wire_length] at hlen
    simp only [length_nil] at hlen
    omega
  have hsignature : signature <+: stream := (prefix_append _ _).trans hb
  obtain ⟨tail, rfl⟩ := hsignature
  -- neither wait applies to a stream that starts with the signature
  have hcut : ∀ len, 4 ≤ len → len ≤ bufferSize →
      ∃ service, served url rule clientAddr (cutAt len (signature ++ tail)) = some service ∧
        service.originalClient =
          (receiveStream clientAddr ((signature ++ tail).take len)).originalClient ∧
        pump service.initialPayload service.pending =
          (signature ++ tail).drop (incomingChain ((signature ++ tail).take len)).payloadOffset := by
    intro len hfour hlen
    obtain ⟨targets, hroute⟩ := routeRequest_ok hhost
      (receiveStream clientAddr ((signature ++ tail).take len)).payload
    refine served_cutAt (by omega) hlen hne ?_ ?_ ?_ hroute
    · intro hwait
      have hlooks := (Bool.and_eq_true_iff.mp hwait).2
      have hhead := head_of_looksLikeSignaling (take_ne_nil (by omega) hne) hlooks
      rw [← head_of_starts (take_ne_nil (by omega) hne) (List.take_prefix _ _)] at hhead
      have hcr : (signature ++ tail).head? = some 0x0d := rfl
      rw [hcr] at hhead
      rcases hhead with h | h <;> cases h
    · intro _
      have hzero : headerEnd (signature ++ tail) = some 0 := rfl
      rw [(headerEnd_take (signature ++ tail) len 0).mpr ⟨hzero, hfour⟩]
      rfl
    · intro htrue
      rw [hhost] at htrue
      cases htrue
  have hsize : b.wire.length ≤ bufferSize := by
    have hfits := b.lengthFits
    rw [b.wire_length, bufferSize]
    omega
  have htake : (signature ++ tail).take b.wire.length = b.wire :=
    (prefix_iff_eq_take.mp hb).symm
  obtain ⟨short, hshort, hshortClient, hshortPump⟩ := hcut 4 (by omega) (by decide)
  obtain ⟨whole, hwhole, hwholeClient, hwholePump⟩ :=
    hcut b.wire.length (by rw [b.wire_length]; omega) hsize
  have hresult := hsame _ _ (isSplit_cutAt 4 _) (isSplit_cutAt b.wire.length _)
  rw [hshort, hwhole] at hresult
  obtain ⟨hclient, _, hbytes⟩ := hresult
  -- with the same client in front, the pumps must have sent the same
  have hpumps := hbytes clientAddr 0
  rw [Service.bytesToTarget, Service.bytesToTarget, hclient, append_cancel_left_eq] at hpumps
  have hfour : incomingChain ((signature ++ tail).take 4) = ⟨[], 0⟩ := rfl
  have hchain : incomingChain ((signature ++ tail).take b.wire.length) =
      ⟨[b.header], b.wire.length⟩ := by
    have hempty : IsPayload [] := Or.inl (by decide)
    have hone := incomingChain_of_blocks [b] hempty
    rw [flatMap_singleton, append_nil] at hone
    rw [htake]
    exact hone
  rw [hshortPump, hwholePump, hfour, hchain, drop_zero] at hpumps
  have hlengths := congrArg length hpumps
  have hle := hb.length_le
  rw [length_drop] at hlengths
  dsimp only at hlengths
  rw [b.wire_length] at hlengths hle
  omega

/-- A host router that accepts a head finds no chain in front of it. -/
theorem incomingChain_of_head (hhead : ¬ HeadRefused url stream) (hp : p <+: stream) :
    incomingChain p = ⟨[], 0⟩ :=
  incomingChain_none hp (fun _ hb =>
    hhead (headRefused_of_signature ((prefix_append _ _).trans hb)))

/-- A client that is not refused anyway is served when its first read is as
large as can be. -/
theorem served_largest (hne : stream ≠ []) (hrefused : ¬ RefusedAnyway url rule stream) :
    ∃ service, served url rule clientAddr (cutAt bufferSize stream) = some service := by
  obtain ⟨hhead, hmore⟩ := not_or.mp hrefused
  obtain ⟨hline, hhost⟩ := not_or.mp hmore
  have hcomplete : rule.httpMappings ≠ [] → (headerEnd (stream.take bufferSize)).isSome = true := by
    intro hmappings
    cases hnone : headerEnd (stream.take bufferSize) with
    | none => exact absurd ⟨hmappings, hnone⟩ hhead
    | some n => rfl
  have hnone : rule.hostRouting = true → incomingChain (stream.take bufferSize) = ⟨[], 0⟩ := by
    intro hrouting
    exact incomingChain_of_head (fun h => hhost ⟨hrouting, h⟩) (List.take_prefix _ _)
  have hroute : ∃ targets, routeRequest url rule
      (receiveStream clientAddr (stream.take bufferSize)).payload = .ok targets := by
    cases hrouting : rule.hostRouting with
    | false => exact routeRequest_ok hrouting _
    | true =>
      rw [receiveStream_of_none (hnone hrouting), routeRequest_take hcomplete]
      exact routeRequest_ok_of_head hrouting (fun h => hhost ⟨hrouting, h⟩)
  have hwaited : (rule.advertises && looksLikeSignaling (stream.take bufferSize)) = true →
      (0x0a : UInt8) ∈ stream.take bufferSize ∨
        stream.length ≤ bufferSize ∧ stream.length < 4096 := by
    intro hwait
    obtain ⟨hadvertises, hlooks⟩ := Bool.and_eq_true_iff.mp hwait
    by_cases hshort : stream.length < 4096
    · exact Or.inr ⟨by rw [bufferSize]; omega, hshort⟩
    · have hlong : 4 < (stream.take bufferSize).length := by
        rw [length_take, bufferSize]
        omega
      obtain ⟨method, hmethod, hstarts⟩ := method_of_looksLikeSignaling hlong hlooks
      by_contra hnot
      exact hline ⟨hadvertises, ⟨method, hmethod, hstarts.trans (List.take_prefix _ _)⟩, by omega,
        fun hmem => hnot (Or.inl hmem)⟩
  obtain ⟨targets, hroute⟩ := hroute
  obtain ⟨service, hservice, _⟩ := served_cutAt (by decide) (Nat.le_refl _) hne
    hwaited hcomplete (fun hrouting => by rw [hnone hrouting]) hroute
  exact ⟨service, hservice⟩

/-- A head that a slow client does not complete within the limit. -/
theorem served_bytewise_of_long_head (hmappings : rule.httpMappings ≠ [])
    (hnone : headerEnd (stream.take 32768) = none) :
    served url rule clientAddr (bytewise stream) = none := by
  by_contra hsome
  obtain ⟨service, hservice⟩ := Option.ne_none_iff_exists'.mp hsome
  obtain ⟨hfirst, line, head, hline, hhead, _⟩ :=
    served_eq_some.mp hservice
  have hreading := reading_first (isSplit_bytewise stream)
  have hbounded := readSegment_bounded bufferSize (bytewise_bounded stream)
  obtain ⟨hreading', _⟩ := awaitRequestLine_ok hreading hline
  have hbound := awaitRequestLine_length hreading 32768 1 (by omega) (Or.inr hbounded.1)
    (hbounded.2.trans (by omega)) hline
  obtain ⟨e, he⟩ := awaitRoutingHead_fails hmappings hreading' 32768 1 (by omega)
    (Or.inr (hbound.2.resolve_left (by omega))) hbound.1 hnone
  rw [he] at hhead
  cases hhead

/-- A request line that a slow client does not complete within the limit. -/
theorem served_bytewise_of_long_line (hadvertises : rule.advertises = true)
    (hhead : stream.head? = some 0x47 ∨ stream.head? = some 0x50) (hlong : 4096 ≤ stream.length)
    (hnone : (0x0a : UInt8) ∉ stream.take 4096) :
    served url rule clientAddr (bytewise stream) = none := by
  by_contra hsome
  obtain ⟨service, hservice⟩ := Option.ne_none_iff_exists'.mp hsome
  obtain ⟨hfirst, line, _, hline, _, _⟩ := served_eq_some.mp hservice
  have hreading := reading_first (isSplit_bytewise stream)
  have hbounded := readSegment_bounded bufferSize (bytewise_bounded stream)
  have hlooks : looksLikeSignaling (readSegment bufferSize (bytewise stream)).1 = true := by
    cases stream with
    | nil => rcases hhead with h | h <;> cases h
    | cons c rest =>
      rw [readSegment_bytewise]
      rcases hhead with h | h <;> (cases h; rfl)
  obtain ⟨e, he⟩ := awaitRequestLine_fails hadvertises hlooks hreading 4096 1 (by omega)
    (Or.inr hbounded.1) (hbounded.2.trans (by omega)) hlong hnone
  rw [he] at hline
  cases hline

variable (url rule clientAddr)

/-- **When the segmentation does not matter.**  For every listener rule and
every client stream, all splits of the stream are served alike exactly when the
stream is refused on every split or no read can be told from another. -/
theorem segmentation_iff (stream : Bytes) :
    SegmentationIndependent url rule clientAddr stream ↔
      RefusedAnyway url rule stream ∨ Settled rule stream := by
  constructor
  · intro hsame
    by_contra hneither
    obtain ⟨hrefused, hsettled⟩ := not_or.mp hneither
    have hlargest : stream ≠ [] → served url rule clientAddr (bytewise stream) = none → False := by
      intro hne hbytes
      obtain ⟨service, hservice⟩ := served_largest hne hrefused
      have hresult := hsame _ _ (isSplit_cutAt bufferSize stream) (isSplit_bytewise stream)
      rw [hservice, hbytes] at hresult
      exact hresult
    apply hsettled
    constructor
    · intro hhost b hb
      exact dependent_of_header hhost hb hsame
    · intro hmappings
      by_contra hnone
      have hhead : headerEnd (stream.take 32768) = none := by
        cases hsome : headerEnd (stream.take 32768) with
        | none => rfl
        | some n => exact absurd ⟨n, (headerEnd_take stream 32768 n).mp hsome⟩ hnone
      refine hlargest ?_ (served_bytewise_of_long_head hmappings hhead)
      intro hnil
      exact hrefused (Or.inl ⟨hmappings, by rw [hnil]; rfl⟩)
    · intro hadvertises hhead
      by_contra hnot
      obtain ⟨hnone, hlong⟩ := not_or.mp hnot
      refine hlargest ?_ (served_bytewise_of_long_line hadvertises hhead
        (by omega) hnone)
      intro hnil
      rw [hnil] at hhead
      rcases hhead with h | h <;> cases h
  · intro h
    by_cases hrefused : RefusedAnyway url rule stream
    · intro segments₁ segments₂ hsplit₁ hsplit₂
      rw [served_none_of_refused hsplit₁ hrefused,
        served_none_of_refused hsplit₂ hrefused]
      exact trivial
    · exact independent_of_settled (h.resolve_left hrefused) hrefused

/-- A URL parser that rejects everything. -/
def noUrl : UrlParser where
  parse := Function.const _ none
  host_not_absolute := by
    intro text host u hparse _
    cases hparse

/-- A header of the player's and one byte, read at once and read in two parts:
only the first read that returns all of the header sees the player. -/
theorem segmentation_matters :
    let stream := (Hop.mk playerAddr relayAddr false).wire ++ [1]
    let plainRule : ListenerRule :=
      { tcp := some 25565, target := some { host := "backend".toList, tcp := some 25566 } }
    (∃ a b, served noUrl plainRule relayAddr [stream] = some a ∧
      served noUrl plainRule relayAddr [stream.take 4, stream.drop 4] = some b ∧
      a.originalClient = playerAddr ∧ pump a.initialPayload a.pending = [1] ∧
      b.originalClient = relayAddr ∧ pump b.initialPayload b.pending = stream) ∧
    ¬ SegmentationIndependent noUrl plainRule relayAddr stream := by
  intro stream plainRule
  have hwhole : IsSplit stream [stream] := ⟨rfl, by decide⟩
  have hparts : IsSplit stream [stream.take 4, stream.drop 4] := ⟨rfl, by decide⟩
  refine ⟨⟨_, _, rfl, rfl, rfl, rfl, rfl, rfl⟩, fun hsame => ?_⟩
  obtain ⟨hclient, _⟩ := hsame _ _ hwhole hparts
  revert hclient
  decide

end FerrumProxy
