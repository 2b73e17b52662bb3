import FerrumProxy.NetAddress

/-!
# PROXY protocol v2 chains

The encoder `buildProxyV2Header` and the decoder `parseProxyChain` of `proxy_protocol.rs`.  The
decoder walks over an unbounded sequence of headers; `parseHeaderAt` is one round of its loop.
Between the two stands `ProxyBlock`: the decoder reads a sequence of blocks and accepts nothing
else, and every header the encoder writes is the wire form of a block.
-/

namespace FerrumProxy

open Wire

/-- `\r\n\r\n\0\r\nQUIT\n`. -/
def signature : Bytes :=
  [0x0d, 0x0a, 0x0d, 0x0a, 0x00, 0x0d, 0x0a, 0x51, 0x55, 0x49, 0x54, 0x0a]

def versionCommandProxy : UInt8 := 0x21
def familyInetStream : UInt8 := 0x11
def familyInetDgram : UInt8 := 0x12
def familyInet6Stream : UInt8 := 0x21
def familyInet6Dgram : UInt8 := 0x22

/-- The addresses that a header names. -/
structure ProxyHeader where
  sourceAddress : IpAddr
  sourcePort : UInt16
  destinationAddress : IpAddr
  destinationPort : UInt16
  deriving DecidableEq

/-- The sender a header names. -/
def ProxyHeader.source (h : ProxyHeader) : SocketAddr :=
  ⟨h.sourceAddress, h.sourcePort⟩

/-- What is read of a buffer. -/
structure ParsedProxyChain where
  headers : List ProxyHeader
  payloadOffset : Nat
  deriving DecidableEq

def parseIpv4 (body : Bytes) : Except Fault ProxyHeader := do
  if body.length < 12 then
    throw (.bail "truncated IPv4 PROXY protocol body")
  let s0 ← byteAt body 0
  let s1 ← byteAt body 1
  let s2 ← byteAt body 2
  let s3 ← byteAt body 3
  let d0 ← byteAt body 4
  let d1 ← byteAt body 5
  let d2 ← byteAt body 6
  let d3 ← byteAt body 7
  let sp0 ← byteAt body 8
  let sp1 ← byteAt body 9
  let dp0 ← byteAt body 10
  let dp1 ← byteAt body 11
  return {
    sourceAddress := .v4 ⟨[s0, s1, s2, s3], rfl⟩
    destinationAddress := .v4 ⟨[d0, d1, d2, d3], rfl⟩
    sourcePort := u16FromBE sp0 sp1
    destinationPort := u16FromBE dp0 dp1 }

/-- `copy_from_slice` into a `[u8; 16]`: stops on any other length. -/
def copyIpv6 (octets : Bytes) : Except Fault Ipv6Addr :=
  if h : octets.length = 16 then .ok ⟨octets, h⟩ else .error .outOfBounds

def parseIpv6 (body : Bytes) : Except Fault ProxyHeader := do
  if body.length < 36 then
    throw (.bail "truncated IPv6 PROXY protocol body")
  let src ← copyIpv6 (← slice body 0 16)
  let dst ← copyIpv6 (← slice body 16 32)
  let sp0 ← byteAt body 32
  let sp1 ← byteAt body 33
  let dp0 ← byteAt body 34
  let dp1 ← byteAt body 35
  return {
    sourceAddress := .v6 src
    destinationAddress := .v6 dst
    sourcePort := u16FromBE sp0 sp1
    destinationPort := u16FromBE dp0 dp1 }

def isInet (family : UInt8) : Bool :=
  family == familyInetStream || family == familyInetDgram

def isInet6 (family : UInt8) : Bool :=
  family == familyInet6Stream || family == familyInet6Dgram

/-- The loop condition: at least 16 bytes are left and they start with the
signature. -/
def atSignature (buf : Bytes) (offset : Nat) : Bool :=
  decide (16 ≤ buf.length - offset) && (buf.drop offset).take 12 == signature

/-- The `match family` of the loop. -/
def parseBody (family : UInt8) (body : Bytes) : Except Fault ProxyHeader :=
  if isInet family then parseIpv4 body
  else if isInet6 family then parseIpv6 body
  else .error (.bail "unsupported PROXY protocol family")

/-- One round of the loop: the header at `offset` and where its body ends. -/
def parseHeaderAt (buf : Bytes) (offset : Nat) : Except Fault (ProxyHeader × Nat) := do
  let command ← byteAt buf (offset + 12)
  if command ≠ versionCommandProxy then
    .error (.bail "unsupported PROXY protocol command")
  else
    let family ← byteAt buf (offset + 13)
    let hi ← byteAt buf (offset + 14)
    let lo ← byteAt buf (offset + 15)
    let len := (u16FromBE hi lo).toNat
    if buf.length < offset + 16 + len then
      .error (.bail "truncated PROXY protocol header")
    else
      let body ← slice buf (offset + 16) (offset + 16 + len)
      let header ← parseBody family body
      return (header, offset + 16 + len)

/-- The `while` loop.  Every round moves `offset` forward by at least 16, so
`buf.length + 1` rounds are never used up (`parseChainFrom_fuel`). -/
def parseChainFrom : Nat → Bytes → Nat → List ProxyHeader → Except Fault ParsedProxyChain
  | 0, _, offset, headers => .ok ⟨headers, offset⟩
  | rounds + 1, buf, offset, headers =>
    if atSignature buf offset then
      match parseHeaderAt buf offset with
      | .ok (header, bodyEnd) => parseChainFrom rounds buf bodyEnd (headers ++ [header])
      | .error fault => .error fault
    else
      .ok ⟨headers, offset⟩

def parseProxyChain (buf : Bytes) : Except Fault ParsedProxyChain :=
  parseChainFrom (buf.length + 1) buf 0 []

def buildProxyV2Header (source destination : SocketAddr) (datagram : Bool) : Bytes :=
  let inet := if datagram then familyInetDgram else familyInetStream
  let inet6 := if datagram then familyInet6Dgram else familyInet6Stream
  signature ++ [versionCommandProxy] ++
    (match source.ip, destination.ip with
      | .v4 src, .v4 dst => [inet] ++ u16ToBE 12 ++ src.octets ++ dst.octets
      | .v6 src, .v6 dst => [inet6] ++ u16ToBE 36 ++ src.octets ++ dst.octets
      | src, dst =>
        [inet6] ++ u16ToBE 36 ++ src.toIpv6Mapped.octets ++ dst.toIpv6Mapped.octets) ++
    u16ToBE source.port ++ u16ToBE destination.port

/-! ### The decoder on one block -/

/-- The header in an IPv4 body. -/
def inetHeader (body : Bytes) (h : 12 ≤ body.length) : ProxyHeader where
  sourceAddress := .v4 ⟨[body[0], body[1], body[2], body[3]], rfl⟩
  destinationAddress := .v4 ⟨[body[4], body[5], body[6], body[7]], rfl⟩
  sourcePort := u16FromBE body[8] body[9]
  destinationPort := u16FromBE body[10] body[11]

/-- The header in an IPv6 body. -/
def inet6Header (body : Bytes) (h : 36 ≤ body.length) : ProxyHeader where
  sourceAddress := .v6 ⟨body.take 16, by simp; omega⟩
  destinationAddress := .v6 ⟨(body.drop 16).take 16, by simp; omega⟩
  sourcePort := u16FromBE body[32] body[33]
  destinationPort := u16FromBE body[34] body[35]

variable {body buf : Bytes} {bodyEnd : Nat} {h : ProxyHeader}

/-- A body that is long enough for IPv4 is read. -/
theorem parseIpv4_ok (h : 12 ≤ body.length) : parseIpv4 body = .ok (inetHeader body h) := by
  have hlong : ¬ body.length < 12 := by omega
  simp only [parseIpv4, if_neg hlong]
  simp (disch := omega) only [byteAt_ok]
  rfl

theorem copyIpv6_ok {octets : Bytes} (h : octets.length = 16) :
    copyIpv6 octets = .ok ⟨octets, h⟩ :=
  dif_pos h

/-- A body that is long enough for IPv6 is read. -/
theorem parseIpv6_ok (h : 36 ≤ body.length) : parseIpv6 body = .ok (inet6Header body h) := by
  have hlong : ¬ body.length < 36 := by omega
  simp only [parseIpv6, if_neg hlong]
  simp (disch := omega) only [slice_ok, byteAt_ok]
  have hsource : ((body.drop 0).take (16 - 0)).length = 16 := by
    rw [List.length_take, List.length_drop]
    omega
  have hdestination : ((body.drop 16).take (32 - 16)).length = 16 := by
    rw [List.length_take, List.length_drop]
    omega
  simp only [bind, Except.bind, copyIpv6_ok hsource, copyIpv6_ok hdestination]
  rfl

/-- A well-formed header on the wire: its family, and a body that is long
enough for the family and whose length fits the 16-bit length field. -/
structure ProxyBlock where
  family : UInt8
  body : Bytes
  lengthFits : body.length < 65536
  addressFits : (isInet family = true ∧ 12 ≤ body.length) ∨
    (isInet family = false ∧ isInet6 family = true ∧ 36 ≤ body.length)

namespace ProxyBlock

/-- The sixteen bytes before the body. -/
def preamble (b : ProxyBlock) : Bytes :=
  signature ++ [versionCommandProxy, b.family] ++ u16ToBE (UInt16.ofNat b.body.length)

def wire (b : ProxyBlock) : Bytes := b.preamble ++ b.body

theorem inet6_fits (b : ProxyBlock) (h : ¬ isInet b.family = true) :
    isInet6 b.family = true ∧ 36 ≤ b.body.length := by
  rcases b.addressFits with ⟨hinet, _⟩ | ⟨_, hinet6⟩
  · exact absurd hinet h
  · exact hinet6

theorem inet_fits (b : ProxyBlock) (h : isInet b.family = true) : 12 ≤ b.body.length := by
  rcases b.addressFits with ⟨_, hlong⟩ | ⟨hinet, _⟩
  · exact hlong
  · simp [hinet] at h

/-- The header a block denotes. -/
def header (b : ProxyBlock) : ProxyHeader :=
  if h : isInet b.family = true then inetHeader b.body (b.inet_fits h)
  else inet6Header b.body (b.inet6_fits h).2

theorem header_inet (b : ProxyBlock) (h : isInet b.family = true) :
    b.header = inetHeader b.body (b.inet_fits h) :=
  dif_pos h

theorem header_inet6 (b : ProxyBlock) (h : ¬ isInet b.family = true) :
    b.header = inet6Header b.body (b.inet6_fits h).2 :=
  dif_neg h

@[simp] theorem preamble_length (b : ProxyBlock) : b.preamble.length = 16 := rfl

@[simp] theorem wire_length (b : ProxyBlock) : b.wire.length = 16 + b.body.length := by
  simp [wire]

theorem declaredLength (b : ProxyBlock) :
    (u16FromBE (UInt8.ofNat ((UInt16.ofNat b.body.length).toNat / 256))
      (UInt8.ofNat ((UInt16.ofNat b.body.length).toNat % 256))).toNat = b.body.length := by
  rw [u16FromBE_toBE]
  exact UInt16.toNat_ofNat_of_lt' b.lengthFits

end ProxyBlock

/-- The loop condition sees only what follows the offset. -/
theorem atSignature_append_right (pre buf : Bytes) (offset : Nat) :
    atSignature (pre ++ buf) (pre.length + offset) = atSignature buf offset := by
  have hdrop : (pre ++ buf).drop (pre.length + offset) = buf.drop offset := by
    rw [List.drop_append, List.drop_eq_nil_of_le (Nat.le_add_right _ _),
      Nat.add_sub_cancel_left, List.nil_append]
  have hlen : (pre ++ buf).length - (pre.length + offset) = buf.length - offset := by
    simp only [List.length_append]
    omega
  simp only [atSignature, hdrop, hlen]

/-- One round sees only what follows the offset. -/
theorem parseHeaderAt_append_right (pre buf : Bytes) (offset : Nat) :
    parseHeaderAt (pre ++ buf) (pre.length + offset) =
      (fun r => (r.1, pre.length + r.2)) <$> parseHeaderAt buf offset := by
  have hslice : ∀ n, slice (pre ++ buf) (pre.length + (offset + 16))
      (pre.length + (offset + 16 + n)) = slice buf (offset + 16) (offset + 16 + n) :=
    fun n => slice_append_right pre buf _ _
  have hlen : ∀ n, (pre ++ buf).length < pre.length + (offset + 16 + n) ↔
      buf.length < offset + 16 + n := by
    intro n
    simp only [List.length_append]
    omega
  simp only [parseHeaderAt, Nat.add_assoc] at hslice hlen ⊢
  simp only [byteAt_append_right, hslice, hlen, map_bind, apply_ite, map_pure]
  rfl

/-! ### The loop -/

/-- Prepend parsed headers and the bytes they took to the result for the
remaining bytes. -/
def ParsedProxyChain.after (headers : List ProxyHeader) (consumed : Nat)
    (c : ParsedProxyChain) : ParsedProxyChain :=
  ⟨headers ++ c.headers, consumed + c.payloadOffset⟩

open ParsedProxyChain

/-- The loop sees only what follows the offset, and only appends to the
headers it was given. -/
theorem parseChainFrom_append_right (pre buf : Bytes) (headers : List ProxyHeader) :
    ∀ (rounds offset : Nat) (acc : List ProxyHeader),
      parseChainFrom rounds (pre ++ buf) (pre.length + offset) (headers ++ acc) =
        after headers pre.length <$>
          parseChainFrom rounds buf offset acc := by
  intro rounds
  induction rounds with
  | zero => intro offset acc; rfl
  | succ rounds ih =>
    intro offset acc
    simp only [parseChainFrom, atSignature_append_right, parseHeaderAt_append_right]
    split
    · cases parseHeaderAt buf offset with
      | error fault => rfl
      | ok r => exact (by simpa using ih r.2 (acc ++ [r.1]))
    · rfl

/-- A round that succeeds moves forward by at least sixteen bytes and stays
inside the buffer. -/
theorem parseHeaderAt_advances {offset : Nat} (hok : parseHeaderAt buf offset = .ok (h, bodyEnd)) :
    offset + 16 ≤ bodyEnd ∧ bodyEnd ≤ buf.length := by
  obtain ⟨command, _, hok⟩ := bind_eq_ok.mp hok
  split at hok
  · cases hok
  obtain ⟨family, _, hok⟩ := bind_eq_ok.mp hok
  obtain ⟨hi, _, hok⟩ := bind_eq_ok.mp hok
  obtain ⟨lo, _, hok⟩ := bind_eq_ok.mp hok
  dsimp only at hok
  split at hok
  · cases hok
  obtain ⟨body, _, hok⟩ := bind_eq_ok.mp hok
  obtain ⟨header, _, hok⟩ := bind_eq_ok.mp hok
  cases hok
  omega

/-- The number of rounds does not matter once it exceeds the bytes left. -/
theorem parseChainFrom_fuel (buf : Bytes) :
    ∀ (m n offset : Nat) (acc : List ProxyHeader),
      buf.length - offset < m → buf.length - offset < n →
      parseChainFrom m buf offset acc = parseChainFrom n buf offset acc := by
  intro m
  induction m with
  | zero => intro n offset acc hm _; omega
  | succ m ih =>
    intro n offset acc hm hn
    obtain ⟨n, rfl⟩ : ∃ k, n = k + 1 := ⟨n - 1, by omega⟩
    simp only [parseChainFrom]
    split
    · cases hround : parseHeaderAt buf offset with
      | error fault => rfl
      | ok r =>
        have hadv := parseHeaderAt_advances hround
        exact ih n r.2 _ (by omega) (by omega)
    · rfl

/-- A block is recognised at the start of a buffer, and one round reads its
header and steps over it. -/
theorem atSignature_wire (b : ProxyBlock) (rest : Bytes) :
    atSignature (b.wire ++ rest) 0 = true := by
  have hlen : 16 ≤ (b.wire ++ rest).length := by simp; omega
  have htake : (b.wire ++ rest).take 12 = signature := rfl
  simp only [atSignature, Nat.sub_zero, List.drop_zero, htake, hlen, decide_true,
    Bool.true_and, BEq.rfl]

/-- One round reads the header of a block. -/
theorem parseHeaderAt_wire (b : ProxyBlock) (rest : Bytes) :
    parseHeaderAt (b.wire ++ rest) 0 = .ok (b.header, b.wire.length) := by
  have hbody : slice (b.wire ++ rest) 16 (16 + b.body.length) = .ok b.body := by
    have h := slice_append_right b.preamble (b.body ++ rest) 0 b.body.length
    rw [ProxyBlock.preamble_length, ← List.append_assoc] at h
    rw [ProxyBlock.wire, h, slice_ok (Nat.zero_le _) (by simp)]
    simp
  have hheader : parseBody b.family b.body = .ok b.header := by
    by_cases hinet : isInet b.family = true
    · rw [parseBody, if_pos hinet, parseIpv4_ok (b.inet_fits hinet), b.header_inet hinet]
    · rw [parseBody, if_neg hinet, if_pos (b.inet6_fits hinet).1,
        parseIpv6_ok (b.inet6_fits hinet).2, b.header_inet6 hinet]
  have hcommand : byteAt (b.wire ++ rest) (0 + 12) = .ok versionCommandProxy := rfl
  have hfamily : byteAt (b.wire ++ rest) (0 + 13) = .ok b.family := rfl
  have hhi : byteAt (b.wire ++ rest) (0 + 14) =
      .ok (UInt8.ofNat ((UInt16.ofNat b.body.length).toNat / 256)) := rfl
  have hlo : byteAt (b.wire ++ rest) (0 + 15) =
      .ok (UInt8.ofNat ((UInt16.ofNat b.body.length).toNat % 256)) := rfl
  have hfits : ¬ (b.wire ++ rest).length < 16 + b.body.length := by simp
  simp only [parseHeaderAt, hcommand, hfamily, hhi, hlo, bind, Except.bind, b.declaredLength,
    Nat.zero_add, if_neg hfits, hbody, hheader, pure, Except.pure, b.wire_length]
  rfl

/-- **One block is peeled off.**  Its header comes first and the rest of the
buffer is parsed as if it stood alone. -/
theorem parseProxyChain_wire (b : ProxyBlock) (rest : Bytes) :
    parseProxyChain (b.wire ++ rest) =
      after [b.header] b.wire.length <$> parseProxyChain rest := by
  have hshift := parseChainFrom_append_right b.wire rest [b.header] (b.wire ++ rest).length 0 []
  simp only [Nat.add_zero, List.append_nil] at hshift
  simp only [parseProxyChain]
  rw [parseChainFrom, if_pos (atSignature_wire b rest), parseHeaderAt_wire]
  simp only [List.nil_append]
  rw [hshift, parseChainFrom_fuel rest (b.wire ++ rest).length (rest.length + 1)]
  · rw [List.length_append, b.wire_length]
    omega
  · omega

/-- A sequence of blocks is read block by block, and then the rest of the
buffer on its own. -/
theorem parseProxyChain_blocks (blocks : List ProxyBlock) (rest : Bytes) :
    parseProxyChain (blocks.flatMap ProxyBlock.wire ++ rest) =
      after (blocks.map ProxyBlock.header)
        (blocks.flatMap ProxyBlock.wire).length <$> parseProxyChain rest := by
  induction blocks with
  | nil =>
    have hid : after [] 0 = id := by
      funext c
      simp [after]
    simp [hid]
  | cons b blocks ih =>
    rw [List.flatMap_cons, List.append_assoc, parseProxyChain_wire, ih]
    cases parseProxyChain rest with
    | error fault => rfl
    | ok c => simp [after, Nat.add_assoc, Functor.map, Except.map]

/-- Bytes on which the loop stops at once: fewer than sixteen, or no signature
in front. -/
def IsPayload (bytes : Bytes) : Prop :=
  bytes.length < 16 ∨ ¬ signature <+: bytes

instance (bytes : Bytes) : Decidable (IsPayload bytes) :=
  inferInstanceAs (Decidable (_ ∨ _))

/-- The loop stops on payloads. -/
theorem atSignature_eq_false_iff (bytes : Bytes) :
    atSignature bytes 0 = false ↔ IsPayload bytes := by
  have hprefix : signature <+: bytes ↔ bytes.take 12 = signature :=
    ⟨fun h => (List.prefix_iff_eq_take.mp h).symm, fun h => h ▸ List.take_prefix 12 bytes⟩
  simp only [atSignature, IsPayload, hprefix, Nat.sub_zero, List.drop_zero,
    Bool.and_eq_false_iff, decide_eq_false_iff_not, Nat.not_le, beq_eq_false_iff_ne]

theorem parseProxyChain_payload {bytes : Bytes} (h : IsPayload bytes) :
    parseProxyChain bytes = .ok ⟨[], 0⟩ := by
  have hstop := (atSignature_eq_false_iff bytes).mpr h
  simp [parseProxyChain, parseChainFrom, hstop]

/-! ### Accepted chains are blocks -/

/-- Only the body of a block is accepted. -/
theorem parseBody_fits {family : UInt8} (hok : parseBody family body = .ok h) :
    (isInet family = true ∧ 12 ≤ body.length) ∨
      (isInet family = false ∧ isInet6 family = true ∧ 36 ≤ body.length) := by
  unfold parseBody at hok
  by_cases hinet : isInet family = true
  · left
    refine ⟨hinet, ?_⟩
    by_contra hshort
    rw [if_pos hinet, parseIpv4, if_pos (by omega)] at hok
    cases hok
  · right
    rw [if_neg hinet] at hok
    by_cases hinet6 : isInet6 family = true
    · refine ⟨by simpa using hinet, hinet6, ?_⟩
      by_contra hshort
      rw [if_pos hinet6, parseIpv6, if_pos (by omega)] at hok
      cases hok
    · rw [if_neg hinet6] at hok
      cases hok

/-- A round that succeeds at a signature stepped over a block. -/
theorem parseHeaderAt_inv (hsig : ¬ IsPayload buf) (hok : parseHeaderAt buf 0 = .ok (h, bodyEnd)) :
    ∃ (b : ProxyBlock) (rest : Bytes), buf = b.wire ++ rest := by
  obtain ⟨hlong, hsig⟩ := not_or.mp hsig
  obtain ⟨tail, rfl⟩ := not_not.mp hsig
  have htail : 4 ≤ tail.length := by
    rw [List.length_append] at hlong
    have hsize : signature.length = 12 := rfl
    omega
  match tail, htail with
  | command :: family :: hi :: lo :: rest, _ =>
    obtain ⟨_, hcommand, hok⟩ := bind_eq_ok.mp hok
    obtain rfl := Except.ok.inj hcommand
    split at hok
    · cases hok
    rename_i hversion
    obtain ⟨_, hfamily, hok⟩ := bind_eq_ok.mp hok
    obtain rfl := Except.ok.inj hfamily
    obtain ⟨_, hhi, hok⟩ := bind_eq_ok.mp hok
    obtain rfl := Except.ok.inj hhi
    obtain ⟨_, hlo, hok⟩ := bind_eq_ok.mp hok
    obtain rfl := Except.ok.inj hlo
    dsimp only at hok
    split at hok
    · cases hok
    rename_i hfits
    obtain ⟨body, hbody, hok⟩ := bind_eq_ok.mp hok
    obtain ⟨header, hheader, _⟩ := bind_eq_ok.mp hok
    have hlen := (u16FromBE hi lo).toNat_lt
    have hrest : (u16FromBE hi lo).toNat ≤ rest.length := by
      simp only [List.length_append, List.length_cons, signature, List.length_nil] at hfits
      omega
    rw [slice_ok (by omega) (by omega)] at hbody
    have hbody' : rest.take (u16FromBE hi lo).toNat = body := by
      rw [← Except.ok.inj hbody, Nat.add_sub_cancel_left]
      rfl
    have hsize : body.length = (u16FromBE hi lo).toNat := by
      rw [← hbody', List.length_take]
      omega
    refine ⟨⟨family, body, by omega, parseBody_fits hheader⟩, rest.drop (u16FromBE hi lo).toNat, ?_⟩
    change _ = signature ++ [versionCommandProxy, family] ++ u16ToBE (UInt16.ofNat body.length) ++
      body ++ rest.drop (u16FromBE hi lo).toNat
    rw [hsize, UInt16.ofNat_toNat, u16ToBE_fromBE, not_not.mp hversion, ← hbody',
      List.append_assoc _ (rest.take _), List.take_append_drop]
    rfl

/-- **What is accepted is well formed.**  A buffer on which the decoder succeeds
is a sequence of blocks followed by bytes on which it stops. -/
theorem parseProxyChain_inv (buf : Bytes) (c : ParsedProxyChain)
    (hok : parseProxyChain buf = .ok c) :
    ∃ (blocks : List ProxyBlock) (rest : Bytes),
      buf = blocks.flatMap ProxyBlock.wire ++ rest ∧ IsPayload rest := by
  induction hn : buf.length using Nat.strong_induction_on generalizing buf c with
  | _ n ih =>
    by_cases hstop : IsPayload buf
    · exact ⟨[], buf, rfl, hstop⟩
    · have hat : atSignature buf 0 = true := by
        rw [← Bool.not_eq_false, atSignature_eq_false_iff]
        exact hstop
      cases hround : parseHeaderAt buf 0 with
      | error fault =>
        rw [parseProxyChain, parseChainFrom, if_pos hat, hround] at hok
        cases hok
      | ok r =>
        obtain ⟨b, rest, rfl⟩ := parseHeaderAt_inv hstop hround
        rw [parseProxyChain_wire] at hok
        cases hparse : parseProxyChain rest with
        | error fault =>
          rw [hparse] at hok
          cases hok
        | ok c' =>
          have hshorter : rest.length < n := by
            rw [← hn, List.length_append, b.wire_length]
            omega
          obtain ⟨blocks, payload, hrest, hpayload⟩ := ih _ hshorter rest c' hparse rfl
          refine ⟨b :: blocks, payload, ?_, hpayload⟩
          rw [List.flatMap_cons, List.append_assoc, ← hrest]

/-- Exactly blocks before a payload are accepted. -/
theorem parseProxyChain_ok_iff :
    (∃ c, parseProxyChain buf = .ok c) ↔
      ∃ (blocks : List ProxyBlock) (rest : Bytes),
        buf = blocks.flatMap ProxyBlock.wire ++ rest ∧ IsPayload rest := by
  constructor
  · intro h
    obtain ⟨c, hok⟩ := h
    exact parseProxyChain_inv buf c hok
  · intro h
    obtain ⟨blocks, rest, rfl, hrest⟩ := h
    rw [parseProxyChain_blocks, parseProxyChain_payload hrest]
    exact ⟨_, rfl⟩

/-! ### The encoder writes blocks -/

/-- One proxy on the path: the arguments of `buildProxyV2Header`. -/
structure Hop where
  source : SocketAddr
  destination : SocketAddr
  datagram : Bool

namespace Hop

def wire (hop : Hop) : Bytes :=
  buildProxyV2Header hop.source hop.destination hop.datagram

/-- What a reader should see of a hop: its ports, and its addresses as they
are when both have the same family, otherwise both mapped to IPv6. -/
def header (hop : Hop) : ProxyHeader :=
  let addresses : IpAddr × IpAddr :=
    match hop.source.ip, hop.destination.ip with
    | .v4 src, .v4 dst => (.v4 src, .v4 dst)
    | .v6 src, .v6 dst => (.v6 src, .v6 dst)
    | src, dst => (.v6 src.toIpv6Mapped, .v6 dst.toIpv6Mapped)
  { sourceAddress := addresses.1
    sourcePort := hop.source.port
    destinationAddress := addresses.2
    destinationPort := hop.destination.port }

end Hop

/-- The body the encoder writes for two IPv4 addresses. -/
def inetBlock (datagram : Bool) (src dst : Ipv4Addr) (sport dport : UInt16) : ProxyBlock where
  family := if datagram then familyInetDgram else familyInetStream
  body := src.octets ++ dst.octets ++ u16ToBE sport ++ u16ToBE dport
  lengthFits := by simp
  addressFits := by
    left
    cases datagram <;> simp <;> decide

/-- The body the encoder writes for two IPv6 addresses. -/
def inet6Block (datagram : Bool) (src dst : Ipv6Addr) (sport dport : UInt16) : ProxyBlock where
  family := if datagram then familyInet6Dgram else familyInet6Stream
  body := src.octets ++ dst.octets ++ u16ToBE sport ++ u16ToBE dport
  lengthFits := by simp
  addressFits := by
    right
    cases datagram <;> simp <;> decide

theorem inetBlock_header (datagram : Bool) (src dst : Ipv4Addr) (sport dport : UInt16) :
    (inetBlock datagram src dst sport dport).header =
      ⟨.v4 src, sport, .v4 dst, dport⟩ := by
  obtain ⟨s, hs⟩ := src
  obtain ⟨d, hd⟩ := dst
  obtain ⟨s0, s1, s2, s3, rfl⟩ := List.length_eq_four.mp hs
  obtain ⟨d0, d1, d2, d3, rfl⟩ := List.length_eq_four.mp hd
  have hinet : isInet (inetBlock datagram ⟨_, hs⟩ ⟨_, hd⟩ sport dport).family = true := by
    cases datagram <;> rfl
  rw [ProxyBlock.header_inet _ hinet]
  simp [inetHeader, inetBlock, u16ToBE, u16FromBE_toBE]

theorem inet6Block_header (datagram : Bool) (src dst : Ipv6Addr) (sport dport : UInt16) :
    (inet6Block datagram src dst sport dport).header =
      ⟨.v6 src, sport, .v6 dst, dport⟩ := by
  obtain ⟨s, hs⟩ := src
  obtain ⟨d, hd⟩ := dst
  have hinet : isInet (inet6Block datagram ⟨s, hs⟩ ⟨d, hd⟩ sport dport).family = false := by
    cases datagram <;> rfl
  rw [ProxyBlock.header_inet6 _ (by simp [hinet])]
  simp [inet6Header, inet6Block, u16ToBE, u16FromBE_toBE, hs, hd]

/-- The block a hop is encoded as. -/
def Hop.block (hop : Hop) : ProxyBlock :=
  match hop.source.ip, hop.destination.ip with
  | .v4 src, .v4 dst => inetBlock hop.datagram src dst hop.source.port hop.destination.port
  | .v6 src, .v6 dst => inet6Block hop.datagram src dst hop.source.port hop.destination.port
  | src, dst =>
    inet6Block hop.datagram src.toIpv6Mapped dst.toIpv6Mapped
      hop.source.port hop.destination.port

/-- A hop is written as its block. -/
theorem Hop.block_wire (hop : Hop) : hop.block.wire = hop.wire := by
  obtain ⟨⟨src, sport⟩, ⟨dst, dport⟩, datagram⟩ := hop
  cases src <;> cases dst <;>
    simp [Hop.block, Hop.wire, ProxyBlock.wire, ProxyBlock.preamble, buildProxyV2Header,
      inetBlock, inet6Block]

/-- The block of a hop denotes its header. -/
theorem Hop.block_header (hop : Hop) : hop.block.header = hop.header := by
  obtain ⟨⟨src, sport⟩, ⟨dst, dport⟩, datagram⟩ := hop
  cases src <;> cases dst <;> simp [Hop.block, Hop.header, inetBlock_header, inet6Block_header]

/-- **Round trip over whole chains.**  Encoding any hops one after another and
appending a payload that the loop does not take for a further header, the
decoder returns one header per hop, in order, and the payload's position. -/
theorem parseProxyChain_build (hops : List Hop) (payload : Bytes)
    (hpayload : payload.length < 16 ∨ ¬ signature <+: payload) :
    parseProxyChain (hops.flatMap Hop.wire ++ payload) =
      .ok ⟨hops.map Hop.header, (hops.flatMap Hop.wire).length⟩ := by
  have hwire : hops.flatMap Hop.wire = (hops.map Hop.block).flatMap ProxyBlock.wire := by
    simp [List.flatMap_map, Hop.block_wire]
  have hheader : (hops.map Hop.block).map ProxyBlock.header = hops.map Hop.header := by
    simp [Hop.block_header]
  rw [hwire, parseProxyChain_blocks, parseProxyChain_payload hpayload, hheader]
  simp [after, Functor.map, Except.map]

/-- An IPv4 hop, then a hop whose two families differ, then a short payload:
28 and 52 bytes of headers. -/
theorem parseProxyChain_build_mixed :
    let client : SocketAddr := ⟨.v4 ⟨[203, 0, 113, 42], rfl⟩, 45678⟩
    let edge : SocketAddr := ⟨.v4 ⟨[100, 83, 127, 8], rfl⟩, 5000⟩
    let inner : SocketAddr := ⟨.v6 (Ipv4Addr.toIpv6Mapped ⟨[10, 0, 0, 1], rfl⟩), 443⟩
    parseProxyChain ([⟨edge, inner, false⟩, ⟨client, edge, true⟩].flatMap Hop.wire ++ [1, 0, 9]) =
      .ok ⟨[⟨.v6 edge.ip.toIpv6Mapped, 5000, inner.ip, 443⟩, ⟨client.ip, 45678, edge.ip, 5000⟩],
        80⟩ := by
  intro client edge inner
  exact parseProxyChain_build [⟨edge, inner, false⟩, ⟨client, edge, true⟩] [1, 0, 9] (by decide)

end FerrumProxy
