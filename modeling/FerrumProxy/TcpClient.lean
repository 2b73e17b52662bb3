import FerrumProxy.ByteStreams
import FerrumProxy.ClientIdentity
import FerrumProxy.HttpRequestHead

/-!
# A TCP client, from its first byte to its target

`handle_client` of `tcp.rs` on a plain (not HTTPS) listener.  The client's bytes arrive in segments;
the function reads once, then reads on while it waits for a signaling request line or for a whole
request head, takes the client's identity from an incoming PROXY chain, chooses the targets and
pumps everything to the one it reaches.

Timeouts are not modelled: the client sends what it sends and then closes.
-/

namespace FerrumProxy

open Wire

def bufferSize : Nat := 1024 * 1024

/-- `GET` and `POST`. -/
def signalingMethods : List Bytes := [[0x47, 0x45, 0x54], [0x50, 0x4f, 0x53, 0x54]]

def looksLikeSignaling (firstBuf : Bytes) : Bool :=
  signalingMethods.any (fun method => method.isPrefixOf firstBuf || firstBuf.isPrefixOf method)

namespace ListenerRule

/-- The listener rewrites signaling answers. -/
def advertises (rule : ListenerRule) : Bool :=
  !rule.usesRaknetUdp && rule.nethernetAdvertiseHost.isSome

def hostRouting (rule : ListenerRule) : Bool :=
  rule.httpMappings.any (fun m => m.hostname.isSome)

end ListenerRule

/-- Wait for the end of the request line, on a listener that needs it. -/
def awaitRequestLine (rule : ListenerRule) (firstBuf : Bytes) (segments : List Bytes) :
    Except String (Bytes × List Bytes) :=
  if rule.advertises && looksLikeSignaling firstBuf then
    readUntil (fun buf => buf.contains 0x0a) 4096 4096 "signaling headers too large" none
      (segments.flatten.length + 1) firstBuf segments
  else
    .ok (firstBuf, segments)

/-- Wait for the end of the request head, on a listener with mappings. -/
def awaitRoutingHead (rule : ListenerRule) (firstBuf : Bytes) (segments : List Bytes) :
    Except String (Bytes × List Bytes) :=
  if rule.httpMappings.isEmpty then .ok (firstBuf, segments)
  else
    readUntil (fun buf => (headerEnd buf).isSome) 32768 4096 "HTTP routing headers too large"
      (some "incomplete HTTP routing request") (segments.flatten.length + 1) firstBuf segments

/-- The targets for a request. -/
def routeRequest (url : UrlParser) (rule : ListenerRule) (initialPayload : Bytes) :
    Except String (List ProxyTarget) := do
  let requestHost ← if rule.hostRouting then httpRequestHost url initialPayload else .ok none
  ensure (!rule.hostRouting || (requestHost.isSome && (httpRequestPath url initialPayload).isSome))
    "HTTP Host is required for hostname routing"
  let mapped := rule.httpTargetsForRequest .tcp (httpRequestPath url initialPayload) requestHost
  return if mapped.isEmpty then rule.targetsFor .tcp else mapped

/-- What `handle_client` knows when it starts to connect: `pending` is the part
of the stream it has not read. -/
structure Service where
  originalClient : SocketAddr
  targets : List ProxyTarget
  initialPayload : Bytes
  pending : List Bytes

/-- The decisions on the bytes read first. -/
def serveClient (url : UrlParser) (rule : ListenerRule) (clientAddr : SocketAddr)
    (firstBuf : Bytes) (pending : List Bytes) : Except String Service := do
  let incoming := receiveStream clientAddr firstBuf
  ensure (!rule.hostRouting || (incomingChain firstBuf).headers.isEmpty)
    "incoming PROXY is not accepted on HTTP host routers"
  let targets ← routeRequest url rule incoming.payload
  return {
    originalClient := incoming.originalClient
    targets := targets
    initialPayload := incoming.payload
    pending := pending }

/-- `handle_client` up to the choice of targets; `none` when the client closes
without a byte. -/
def handleClient (url : UrlParser) (rule : ListenerRule) (clientAddr : SocketAddr)
    (segments : List Bytes) : Except String (Option Service) :=
  match readSegment bufferSize segments with
  | ([], _) => .ok none
  | (firstBuf, rest) => do
      let line ← awaitRequestLine rule firstBuf rest
      let head ← awaitRoutingHead rule line.1 line.2
      let service ← serveClient url rule clientAddr head.1 head.2
      return some service

/-- `pump`: the bytes the client-to-target direction writes. -/
def pump (initial : Bytes) (segments : List Bytes) : Bytes :=
  initial ++ drain bufferSize (segments.flatten.length + 1) segments

/-- All bytes sent to a target that is reached at an address and does no HTTP
rewriting. -/
def Service.bytesToTarget (service : Service) (rule : ListenerRule) (targetAddr : SocketAddr)
    (targetPort : UInt16) : Bytes :=
  (if rule.haproxy then
    buildProxyV2Header service.originalClient ⟨targetAddr.ip, targetPort⟩ false
  else []) ++ pump service.initialPayload service.pending

/-! ### What is read and what is still to come -/

/-- The states of `handle_client` while it reads: the bytes read so far are a
non-empty prefix of the stream and the rest is still to be read. -/
structure Reading (stream : Bytes) (firstBuf : Bytes) (rest : List Bytes) : Prop where
  stream_eq : firstBuf ++ rest.flatten = stream
  rest_nonempty : ∀ s ∈ rest, s ≠ []

variable {stream firstBuf : Bytes} {rest : List Bytes} {rule : ListenerRule}
  {r : Bytes × List Bytes}

theorem Reading.starts (h : Reading stream firstBuf rest) : firstBuf <+: stream :=
  ⟨_, h.stream_eq⟩

theorem Reading.eq_take (h : Reading stream firstBuf rest) :
    firstBuf = stream.take firstBuf.length :=
  List.prefix_iff_eq_take.mp h.starts

theorem reading_first {segments : List Bytes} (h : IsSplit stream segments) :
    Reading stream (readSegment bufferSize segments).1 (readSegment bufferSize segments).2 where
  stream_eq := by rw [readSegment_flatten, h.flatten]
  rest_nonempty := readSegment_nonempty h.nonempty

theorem awaitRequestLine_ok (hreading : Reading stream firstBuf rest)
    (hok : awaitRequestLine rule firstBuf rest = .ok r) :
    Reading stream r.1 r.2 ∧ firstBuf.length ≤ r.1.length := by
  unfold awaitRequestLine at hok
  split at hok
  · obtain ⟨hstream, hlen, hrest, _⟩ := readUntil_ok (by omega) (Nat.lt_succ_self _)
      hreading.rest_nonempty hok
    exact ⟨⟨hstream.trans hreading.stream_eq, hrest⟩, hlen⟩
  · cases hok
    exact ⟨hreading, Nat.le_refl _⟩

theorem awaitRoutingHead_ok (hreading : Reading stream firstBuf rest)
    (hok : awaitRoutingHead rule firstBuf rest = .ok r) :
    Reading stream r.1 r.2 ∧ (rule.httpMappings ≠ [] → (headerEnd r.1).isSome = true) := by
  unfold awaitRoutingHead at hok
  split at hok
  · rename_i hnone
    cases hok
    exact ⟨hreading, fun h => absurd (List.isEmpty_iff.mp hnone) h⟩
  · obtain ⟨hstream, _, hrest, hwhy⟩ := readUntil_ok (by omega) (Nat.lt_succ_self _)
      hreading.rest_nonempty hok
    refine ⟨⟨hstream.trans hreading.stream_eq, hrest⟩, fun _ => ?_⟩
    rcases hwhy with hcomplete | ⟨hend, _⟩
    · exact hcomplete
    · cases hend

theorem pump_eq (h : Reading stream firstBuf rest) (offset : Nat)
    (hoffset : offset ≤ firstBuf.length) :
    pump (firstBuf.drop offset) rest = stream.drop offset := by
  unfold pump
  rw [drain_eq (by decide) (Nat.lt_succ_self _) h.rest_nonempty,
    ← List.drop_append_of_le_length hoffset, h.stream_eq]

end FerrumProxy
