import FerrumProxy.ByteStreams
import FerrumProxy.HttpRewrite

/-!
# Rewriting response heads

For a target that is written as a URL the proxy changes the `Location` headers of the backend's
answer, so that a redirect to the backend's own origin becomes a path of the proxy.  The relay
collects the answer until its head is complete, rewrites it and then copies what follows.
-/

namespace FerrumProxy

open Wire Str

/-! ### The `Location` header -/

/-- A path other than the root, or nothing. -/
def pathOrEmpty (path : Option Text) : Text := (path.filter (· != "/".toList)).getD []

/-- The closure `to_proxy_path`. -/
def toProxyPath (mountPath path : Text) : Text :=
  if mountPath.isEmpty then path
  else if path = "/".toList then mountPath
  else mountPath ++ path

def rewriteLocation (protocol : Text) (target : ProxyTarget) (location : Text) : Text :=
  let origin := protocol ++ "://".toList ++ target.host
  let basePath := pathOrEmpty target.urlBasePath
  let mountPath := pathOrEmpty target.mountPath
  let originWithBase := origin ++ basePath
  if location = originWithBase ∨ location = originWithBase ++ "/".toList then
    toProxyPath mountPath "/".toList
  else if !basePath.isEmpty && (originWithBase ++ "/".toList).isPrefixOf location then
    toProxyPath mountPath (location.drop originWithBase.length)
  else if location = origin then
    toProxyPath mountPath (if basePath.isEmpty then "/".toList else basePath)
  else location

def rewriteResponseLine (protocol : Text) (target : ProxyTarget) (line : Text) : Text :=
  if isHeaderLine "location:".toList line then
    "Location: ".toList ++ rewriteLocation protocol target (trim (line.drop 9))
  else line

def rewriteHttpResponse (buf : Bytes) (target : ProxyTarget) : Bytes :=
  match target.urlProtocol, headerEnd buf with
  | some protocol, some headEnd =>
    let lines := splitCrlf (fromUtf8Lossy (buf.take headEnd))
    toUtf8 (joinCrlf (lines.map (rewriteResponseLine protocol target))) ++ crlfcrlf ++
      buf.drop (headEnd + 4)
  | _, _ => buf

/-! ### The relay -/

/-- The variables of the target-to-client loop. -/
structure ResponseState where
  responseHeadHandled : Bool
  pending : Bytes := []

section

variable (target : ProxyTarget)

/-- One round of the loop: the state after it and the bytes it writes. -/
def relayResponse (s : ResponseState) (chunk : Bytes) : ResponseState × Bytes :=
  if s.responseHeadHandled then (s, chunk)
  else
    let pending := s.pending ++ chunk
    if (headerEnd pending).isSome then
      ({ responseHeadHandled := true }, rewriteHttpResponse pending target)
    else ({ s with pending := pending }, [])

/-- The loop; a read without bytes ends it. -/
def relayResponses (s : ResponseState) : List Bytes → ResponseState × Bytes
  | [] => (s, [])
  | chunk :: rest =>
    if chunk.isEmpty then (s, [])
    else
      let (next, outgoing) := relayResponse target s chunk
      let (last, written) := relayResponses next rest
      (last, outgoing ++ written)

/-- Everything the target-to-client half of `spawn_rewrite_relay` writes. -/
def targetToClient (reads : List Bytes) : Bytes :=
  let (last, written) :=
    relayResponses target { responseHeadHandled := target.urlProtocol.isNone } reads
  written ++ last.pending

variable {target}

/-! ### Only the head is rewritten -/

variable {buf : Bytes} {n : Nat} {reads : List Bytes}

theorem headerEnd_append (h : headerEnd buf = some n) (rest : Bytes) :
    headerEnd (buf ++ rest) = some n := by
  have htake : (buf ++ rest).take buf.length = buf := List.take_left
  exact ((headerEnd_take (buf ++ rest) buf.length n).mp (htake.symm ▸ h)).1

theorem rewriteHttpResponse_of_none (h : headerEnd buf = none) :
    rewriteHttpResponse buf target = buf := by
  unfold rewriteHttpResponse
  rw [h]
  cases target.urlProtocol <;> rfl

theorem rewriteHttpResponse_of_plain (h : target.urlProtocol = none) :
    rewriteHttpResponse buf target = buf := by
  unfold rewriteHttpResponse
  rw [h]

/-- What follows a complete head is left as it is. -/
theorem rewriteHttpResponse_append (h : headerEnd buf = some n) (rest : Bytes) :
    rewriteHttpResponse (buf ++ rest) target = rewriteHttpResponse buf target ++ rest := by
  have hle := headerEnd_le h
  unfold rewriteHttpResponse
  rw [h, headerEnd_append h rest]
  cases target.urlProtocol with
  | none => rfl
  | some protocol =>
    simp only [List.take_append_of_le_length (by omega : n ≤ buf.length),
      List.drop_append_of_le_length hle, List.append_assoc]

/-! ### Every way of reading leads to the same bytes -/

/-- After the head the relay copies. -/
theorem relayResponses_handled (hreads : ∀ chunk ∈ reads, chunk ≠ []) :
    relayResponses target ⟨true, []⟩ reads = (⟨true, []⟩, reads.flatten) := by
  induction reads with
  | nil => rfl
  | cons chunk rest ih =>
    rw [List.forall_mem_cons] at hreads
    simp [relayResponses, relayResponse, hreads.1, ih hreads.2]

theorem relayResponses_pending (hreads : ∀ chunk ∈ reads, chunk ≠ []) {pending : Bytes}
    (hpending : headerEnd pending = none) :
    (relayResponses target ⟨false, pending⟩ reads).2 ++
        (relayResponses target ⟨false, pending⟩ reads).1.pending =
      rewriteHttpResponse (pending ++ reads.flatten) target := by
  induction reads generalizing pending with
  | nil => simp [relayResponses, rewriteHttpResponse_of_none hpending]
  | cons chunk rest ih =>
    rw [List.forall_mem_cons] at hreads
    cases hhead : headerEnd (pending ++ chunk) with
    | none =>
      have hrest := ih hreads.2 hhead
      simpa [relayResponses, relayResponse, hreads.1, hhead] using hrest
    | some n =>
      rw [List.flatten_cons, ← List.append_assoc, rewriteHttpResponse_append hhead]
      simp [relayResponses, relayResponse, hreads.1, hhead, relayResponses_handled hreads.2]

end

/-- **What the client receives does not depend on how the answer is read**: it is the whole
answer with its head rewritten, and the answer itself if it has no complete head or the
target is not written as a URL. -/
theorem response_chunking (target : ProxyTarget) {stream : Bytes} {reads : List Bytes}
    (h : IsSplit stream reads) :
    targetToClient target reads = rewriteHttpResponse stream target ∧
      (headerEnd stream = none ∨ target.urlProtocol = none →
        targetToClient target reads = stream) := by
  have hwritten : targetToClient target reads = rewriteHttpResponse stream target := by
    rw [← h.flatten]
    cases hurl : target.urlProtocol with
    | none =>
      simp [targetToClient, hurl, relayResponses_handled h.nonempty,
        rewriteHttpResponse_of_plain hurl]
    | some protocol =>
      have hpending : (relayResponses target ⟨false, []⟩ reads).2 ++
          (relayResponses target ⟨false, []⟩ reads).1.pending =
            rewriteHttpResponse ([] ++ reads.flatten) target :=
        relayResponses_pending h.nonempty rfl
      simpa [targetToClient, hurl] using hpending
  refine ⟨hwritten, fun hsame => ?_⟩
  rw [hwritten]
  rcases hsame with hnone | hplain
  · exact rewriteHttpResponse_of_none hnone
  · exact rewriteHttpResponse_of_plain hplain

/-- A backend that is reached under `/app`. -/
def mountedTarget : ProxyTarget where
  host := "backend".toList
  tcp := some 80
  urlProtocol := some "http".toList
  mountPath := some "/app".toList

/-- A redirect that is read in two parts, cut inside the blank line. -/
theorem response_chunking_cut :
    targetToClient mountedTarget
        [toUtf8 "HTTP/1.1 302 Found\r\nLocation: http://backend/\r\n\r".toList,
          toUtf8 "\nmoved".toList] =
      toUtf8 "HTTP/1.1 302 Found\r\nLocation: /app\r\n\r\nmoved".toList := by
  rw [(response_chunking mountedTarget ⟨rfl, by decide +kernel⟩).1]
  decide +kernel

end FerrumProxy
