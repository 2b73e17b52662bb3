import FerrumProxy.ProxyChain
import FerrumProxy.ConfigTypes

/-!
# Who the client is

The two transports read an incoming PROXY chain on their own: `handle_client` (TCP) trusts the first
header of the chain, `handle_datagram` (RakNet UDP) the last one, and both go back to the peer's
address and the whole buffer when the chain does not parse.
-/

namespace FerrumProxy

open Wire

/-- `parse_proxy_chain(..).unwrap_or_else(..)`: a chain that does not parse
counts as none. -/
def incomingChain (buf : Bytes) : ParsedProxyChain :=
  match parseProxyChain buf with
  | .ok parsed => parsed
  | .error _ => { headers := [], payloadOffset := 0 }

/-- What a listener takes for the client, and for the client's bytes. -/
structure Incoming where
  originalClient : SocketAddr
  payload : Bytes
  deriving DecidableEq

/-- `handle_client` on the bytes it has read first. -/
def receiveStream (clientAddr : SocketAddr) (firstBuf : Bytes) : Incoming :=
  let parsed := incomingChain firstBuf
  { originalClient := (parsed.headers.head?.map ProxyHeader.source).getD clientAddr
    payload := firstBuf.drop parsed.payloadOffset }

/-- `handle_datagram` up to the payload. -/
def receiveDatagram (rule : ListenerRule) (peer : SocketAddr) (packet : Bytes) : Incoming :=
  if rule.usesRaknetUdp && decide (12 ≤ packet.length) && packet.take 12 == signature then
    let parsed := incomingChain packet
    { originalClient := (parsed.headers.getLast?.map ProxyHeader.source).getD peer
      payload := packet.drop parsed.payloadOffset }
  else
    { originalClient := peer, payload := packet }

/-- The bytes `send_to_target` sends, given the session's `header_sent`. -/
def datagramToTarget (rule : ListenerRule) (headerSent : Bool) (originalClient : SocketAddr)
    (payload : Bytes) (targetAddr : SocketAddr) (targetPort : UInt16) : Bytes :=
  if rule.usesRaknetUdp && rule.haproxy && !headerSent then
    buildProxyV2Header originalClient ⟨targetAddr.ip, targetPort⟩ true ++ payload
  else
    payload

/-- A sequence of well-formed headers, possibly none, and a payload. -/
def IsChain (buf : Bytes) : Prop :=
  ∃ (blocks : List ProxyBlock) (payload : Bytes),
    buf = blocks.flatMap ProxyBlock.wire ++ payload ∧ IsPayload payload

open ProxyBlock

theorem incomingChain_of_blocks (blocks : List ProxyBlock) {payload : Bytes}
    (hpayload : IsPayload payload) :
    incomingChain (blocks.flatMap wire ++ payload) =
      ⟨blocks.map header, (blocks.flatMap wire).length⟩ := by
  unfold incomingChain
  rw [parseProxyChain_blocks, parseProxyChain_payload hpayload]
  simp [ParsedProxyChain.after, Functor.map, Except.map]

theorem incomingChain_of_not_isChain {buf : Bytes} (h : ¬ IsChain buf) :
    incomingChain buf = ⟨[], 0⟩ := by
  unfold incomingChain
  cases hparse : parseProxyChain buf with
  | error fault => rfl
  | ok c => exact absurd (parseProxyChain_inv buf c hparse) h

open List

theorem payloadOffset_le (buf : Bytes) : (incomingChain buf).payloadOffset ≤ buf.length := by
  by_cases hchain : IsChain buf
  · obtain ⟨blocks, payload, rfl, hpayload⟩ := hchain
    rw [incomingChain_of_blocks blocks hpayload, length_append]
    exact Nat.le_add_right _ _
  · rw [incomingChain_of_not_isChain hchain]
    exact Nat.zero_le _

/-- A block in front does not change whether the rest is a chain. -/
theorem isChain_wire_append (b : ProxyBlock) (more : Bytes) :
    IsChain (b.wire ++ more) ↔ IsChain more := by
  unfold IsChain
  rw [← parseProxyChain_ok_iff, ← parseProxyChain_ok_iff, parseProxyChain_wire]
  cases parseProxyChain more <;> simp [Functor.map, Except.map]

/-- The signature test of `handle_datagram` passes on every block. -/
theorem receiveDatagram_wire {rule : ListenerRule} (hrule : rule.usesRaknetUdp = true)
    (peer : SocketAddr) (b : ProxyBlock) (more : Bytes) :
    receiveDatagram rule peer (b.wire ++ more) =
      { originalClient := ((incomingChain (b.wire ++ more)).headers.getLast?.map
          ProxyHeader.source).getD peer
        payload := (b.wire ++ more).drop (incomingChain (b.wire ++ more)).payloadOffset } := by
  have hlong : 12 ≤ (b.wire ++ more).length := by
    rw [length_append, b.wire_length]
    omega
  have hsig : (b.wire ++ more).take 12 = signature := rfl
  unfold receiveDatagram
  rw [if_pos (by rw [hrule, decide_eq_true hlong, hsig]; rfl)]

/-! ### Two listeners in a row -/

/-- What a RakNet listener hands on is a payload exactly when the datagram it
got was a chain. -/
theorem receiveDatagram_payload_iff {rule : ListenerRule} (hrule : rule.usesRaknetUdp = true)
    (peer : SocketAddr) (packet : Bytes) :
    IsPayload (receiveDatagram rule peer packet).payload ↔ IsChain packet := by
  by_cases hstop : IsPayload packet
  · -- no signature: the datagram itself is handed on
    have hsame : (receiveDatagram rule peer packet).payload = packet := by
      unfold receiveDatagram
      have hnone : incomingChain packet = ⟨[], 0⟩ := by
        unfold incomingChain
        rw [parseProxyChain_payload hstop]
      split
      · rw [hnone]
        rfl
      · rfl
    rw [hsame]
    exact ⟨fun h => ⟨[], packet, rfl, h⟩, fun _ => hstop⟩
  · have hmore := hstop
    obtain ⟨hlong, hsig⟩ := not_or.mp hmore
    have htake : packet.take 12 = signature :=
      (prefix_iff_eq_take.mp (not_not.mp hsig)).symm
    have hpayload : (receiveDatagram rule peer packet).payload =
        packet.drop (incomingChain packet).payloadOffset := by
      unfold receiveDatagram
      rw [if_pos (by rw [hrule, htake, decide_eq_true (by omega)]; rfl)]
    rw [hpayload]
    by_cases hchain : IsChain packet
    · obtain ⟨blocks, payload, rfl, hrest⟩ := hchain
      rw [incomingChain_of_blocks blocks hrest, drop_left]
      exact ⟨fun h => ⟨blocks, payload, rfl, h⟩, fun _ => hrest⟩
    · rw [incomingChain_of_not_isChain hchain, drop_zero]
      exact ⟨fun h => absurd h hstop, fun h => absurd h hchain⟩

theorem Hop.header_source (hop : Hop) :
    hop.header.source.ip.SameHost hop.source.ip ∧ hop.header.source.port = hop.source.port := by
  obtain ⟨⟨src, sport⟩, ⟨dst, dport⟩, datagram⟩ := hop
  cases src <;> cases dst <;> exact ⟨rfl, rfl⟩

/-- A listener that gets one header and then arbitrary bytes takes exactly
these bytes for the payload only when they do not go on with a header. -/
theorem receiveDatagram_hop_iff {rule : ListenerRule} (hrule : rule.usesRaknetUdp = true)
    (peer : SocketAddr) (hop : Hop) (bytes : Bytes) :
    ((receiveDatagram rule peer (hop.wire ++ bytes)).originalClient.ip.SameHost hop.source.ip ∧
      (receiveDatagram rule peer (hop.wire ++ bytes)).originalClient.port = hop.source.port ∧
      (receiveDatagram rule peer (hop.wire ++ bytes)).payload = bytes) ↔ IsPayload bytes := by
  rw [← hop.block_wire, receiveDatagram_wire hrule]
  constructor
  · intro h
    have hpayload := h.2.2
    by_cases hchain : IsChain bytes
    · obtain ⟨blocks, payload, rfl, hrest⟩ := hchain
      -- the listener stops in front of `payload`, so there is no block before it
      have hblocks := incomingChain_of_blocks (hop.block :: blocks) hrest
      rw [flatMap_cons, append_assoc] at hblocks
      rw [hblocks, ← append_assoc, drop_left] at hpayload
      rw [← hpayload]
      exact hrest
    · rw [incomingChain_of_not_isChain
        (fun h => hchain ((isChain_wire_append hop.block bytes).mp h)), drop_zero] at hpayload
      have hlen := congrArg length hpayload
      rw [length_append, wire_length] at hlen
      omega
  · intro hpayload
    have hblocks := incomingChain_of_blocks [hop.block] hpayload
    rw [flatMap_cons, flatMap_nil, append_nil] at hblocks
    rw [hblocks, drop_left, map_singleton, hop.block_header]
    exact ⟨hop.header_source.1, hop.header_source.2, rfl⟩

/-- **Client identity over two RakNet listeners.**  Listener `a` derives a client
and a payload from a datagram and sends them on with a header; listener `b`
derives the same client (up to mapping) and the same payload exactly when the
datagram that `a` got was a chain and a payload. -/
theorem chainedListeners_iff (a b : ListenerRule) (ha : a.usesRaknetUdp = true)
    (hproxy : a.haproxy = true) (hb : b.usesRaknetUdp = true)
    (peer next target : SocketAddr) (targetPort : UInt16) (packet : Bytes) :
    (let sent := receiveDatagram a peer packet
     let seen := receiveDatagram b next
      (datagramToTarget a false sent.originalClient sent.payload target targetPort)
     seen.originalClient.ip.SameHost sent.originalClient.ip ∧
      seen.originalClient.port = sent.originalClient.port ∧ seen.payload = sent.payload) ↔
      IsChain packet := by
  have hwire : ∀ sent : Incoming,
      datagramToTarget a false sent.originalClient sent.payload target targetPort =
        (Hop.mk sent.originalClient ⟨target.ip, targetPort⟩ true).wire ++ sent.payload := by
    intro sent
    unfold datagramToTarget
    rw [if_pos (by rw [ha, hproxy]; rfl)]
    rfl
  dsimp only
  rw [hwire, receiveDatagram_hop_iff hb next
    (Hop.mk (receiveDatagram a peer packet).originalClient ⟨target.ip, targetPort⟩ true)]
  exact receiveDatagram_payload_iff ha peer packet

/-- A RakNet listener with PROXY headers, a player and a relay. -/
def relayRule : ListenerRule := { udp := some 19132, haproxy := true }

def playerAddr : SocketAddr := ⟨.v4 ⟨[203, 0, 113, 42], rfl⟩, 45678⟩

def relayAddr : SocketAddr := ⟨.v4 ⟨[100, 83, 127, 8], rfl⟩, 5000⟩

/-- A RakNet ping goes through. -/
theorem chainedListeners_ping :
    let sent := receiveDatagram relayRule playerAddr [0x01, 0, 0, 0, 0, 0, 0, 0, 1]
    let seen := receiveDatagram relayRule relayAddr
      (datagramToTarget relayRule false sent.originalClient sent.payload relayAddr 19132)
    seen.originalClient.ip.SameHost sent.originalClient.ip ∧
      seen.originalClient.port = sent.originalClient.port ∧ seen.payload = sent.payload :=
  (chainedListeners_iff relayRule relayRule rfl rfl rfl playerAddr relayAddr relayAddr 19132
    [0x01, 0, 0, 0, 0, 0, 0, 0, 1]).mpr ⟨[], _, rfl, by decide⟩

/-- Sixteen bytes that start like a header of an unknown command: the first
listener forwards them as they are, and the second one takes the first listener
for the client. -/
theorem chainedListeners_forged :
    let sent := receiveDatagram relayRule playerAddr (signature ++ [0x20, 0, 0, 0])
    let seen := receiveDatagram relayRule relayAddr
      (datagramToTarget relayRule false sent.originalClient sent.payload relayAddr 19132)
    sent.originalClient = playerAddr ∧ sent.payload = signature ++ [0x20, 0, 0, 0] ∧
      seen.originalClient = relayAddr ∧ ¬ relayAddr.ip.SameHost playerAddr.ip ∧
      seen.payload ≠ sent.payload := by
  decide

/-! ### The two transports -/

/-- **TCP and UDP agree on the client** of a buffer that starts with a block
exactly when the chain goes wrong after it, or ends in a header that names the
same sender as the first. -/
theorem transports_agree_iff (rule : ListenerRule) (hrule : rule.usesRaknetUdp = true)
    (peer : SocketAddr) (first : ProxyBlock) (more : Bytes) :
    (receiveStream peer (first.wire ++ more)).originalClient =
        (receiveDatagram rule peer (first.wire ++ more)).originalClient ↔
      ∀ (blocks : List ProxyBlock) (payload : Bytes),
        more = blocks.flatMap ProxyBlock.wire ++ payload → IsPayload payload →
        ((first :: blocks).getLast (List.cons_ne_nil first blocks)).header.source =
          first.header.source := by
  rw [receiveDatagram_wire hrule]
  unfold receiveStream
  -- on a chain both sides read the headers of its blocks
  have hclients : ∀ (blocks : List ProxyBlock) (payload : Bytes), IsPayload payload →
      incomingChain (first.wire ++ (blocks.flatMap wire ++ payload)) =
        ⟨(first :: blocks).map header,
          ((first :: blocks).flatMap wire).length⟩ := by
    intro blocks payload hpayload
    rw [← incomingChain_of_blocks (first :: blocks) hpayload, flatMap_cons, append_assoc]
  have hlast : ∀ blocks : List ProxyBlock,
      ((first :: blocks).map header).getLast? =
        some ((first :: blocks).getLast (cons_ne_nil first blocks)).header := by
    intro blocks
    rw [List.getLast?_map, List.getLast?_eq_some_getLast (cons_ne_nil first blocks)]
    rfl
  constructor
  · intro hagree blocks payload hmore hpayload
    rw [hmore, hclients blocks payload hpayload, hlast blocks] at hagree
    exact hagree.symm
  · intro hsame
    by_cases hchain : IsChain more
    · obtain ⟨blocks, payload, rfl, hpayload⟩ := hchain
      rw [hclients blocks payload hpayload, hlast blocks]
      exact (hsame blocks payload rfl hpayload).symm
    · rw [incomingChain_of_not_isChain (fun h => hchain ((isChain_wire_append first more).mp h))]
      rfl

/-- One header, then a payload. -/
theorem transports_agree_single :
    let hop : Hop := ⟨playerAddr, relayAddr, true⟩
    (receiveStream relayAddr (hop.block.wire ++ [1])).originalClient =
      (receiveDatagram relayRule relayAddr (hop.block.wire ++ [1])).originalClient := by
  intro hop
  apply (transports_agree_iff relayRule rfl relayAddr hop.block [1]).mpr
  intro blocks payload hmore _
  cases blocks with
  | nil => rfl
  | cons b rest =>
    have hlen := congrArg length hmore
    rw [flatMap_cons, length_append, length_append, b.wire_length] at hlen
    simp only [length_singleton] at hlen
    omega

/-- A chain of two hops: TCP takes the relay for the client, UDP the player. -/
theorem transports_differ :
    let inner : Hop := ⟨playerAddr, relayAddr, true⟩
    let outer : Hop := ⟨relayAddr, ⟨.v4 ⟨[10, 0, 0, 1], rfl⟩, 19132⟩, true⟩
    (receiveStream relayAddr (outer.wire ++ inner.wire ++ [1])).originalClient = relayAddr ∧
      (receiveDatagram relayRule relayAddr (outer.wire ++ inner.wire ++ [1])).originalClient =
        playerAddr ∧
      relayAddr ≠ playerAddr := by
  decide

end FerrumProxy
