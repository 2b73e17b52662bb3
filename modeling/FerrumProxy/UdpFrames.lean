import FerrumProxy.ExactReads
import FerrumProxy.NetAddress
import FerrumProxy.Utf8Texts

/-!
# UDP frames in a tunnel

Datagrams cross a UDP tunnel as frames: the length and the text of the remote address, the length of
the payload, and the payload.  The shared relay and the desktop client read them with blocking exact
reads, the command-line client with a `readExact` that waits for `data` events.

`readExact` takes its listener off and puts back what it has too much, but it does not pause the
socket: the bytes flow on before the next read listens, and are lost (`Reader.hear`).  On a socket
that gives back what was put back (`Reader.listen`), its read of length zero still waits for one
more event.
-/

namespace FerrumProxy

open Wire Str Reader

/-- The texts of socket addresses, which are short, of ASCII characters, and parse back. -/
structure AddrTexts where
  display : SocketAddr → Text
  parse : Text → Option SocketAddr
  parse_display : ∀ addr, parse (display addr) = some addr
  display_ascii : ∀ addr, ∀ c ∈ display addr, c.toNat < 128
  display_length : ∀ addr, 0 < (display addr).length ∧ (display addr).length < 2 ^ 16

theorem toUtf8_length {text : Text} (h : ∀ c ∈ text, c.toNat < 128) :
    (toUtf8 text).length = text.length := by
  have hone : ∀ c ∈ text, c.utf8Size = 1 := fun c hc =>
    Char.utf8Size_eq_one_iff.mpr (UInt32.le_iff_toNat_le.mpr (Nat.le_of_lt_succ (h c hc)))
  rw [length_toUtf8, byteLen, List.map_congr_left hone, List.map_const', List.sum_replicate,
    smul_eq_mul, Nat.mul_one]

theorem AddrTexts.toUtf8_display (texts : AddrTexts) (addr : SocketAddr) :
    (toUtf8 (texts.display addr)).length = (texts.display addr).length :=
  toUtf8_length (texts.display_ascii addr)

theorem AddrTexts.display_short (texts : AddrTexts) (addr : SocketAddr) :
    (toUtf8 (texts.display addr)).length < 2 ^ 16 := by
  rw [texts.toUtf8_display]
  exact (texts.display_length addr).2

/-! ## Encoders -/

/-- The lengths are cut to 16 and to 32 bits. -/
def udpFrame (remoteBytes payload : Bytes) : Bytes :=
  beBytes 2 remoteBytes.length ++ (remoteBytes ++ (beBytes 4 payload.length ++ payload))

/-- The relay's. -/
def writeUdpFrame (texts : AddrTexts) (remoteAddr : SocketAddr) (payload : Bytes) : Bytes :=
  udpFrame (toUtf8 (texts.display remoteAddr)) payload

/-- The desktop client's. -/
def writeUdpFrameBlocking (texts : AddrTexts) (remoteAddr : SocketAddr) (payload : Bytes) : Bytes :=
  udpFrame (toUtf8 (texts.display remoteAddr)) payload

/-- The command-line client's; `writeUInt16BE` and `writeUInt32BE` throw on larger lengths. -/
def encodeUdpFrame (remote : Text) (payload : Bytes) : Option Bytes :=
  let remoteBytes := toUtf8 remote
  if remoteBytes.length < 2 ^ 16 ∧ payload.length < 2 ^ 32 then some (udpFrame remoteBytes payload)
  else none

/-- Who has written a frame. -/
inductive UdpEncoder where
  | relay
  | desktop
  | commandLine
  deriving DecidableEq

def UdpEncoder.encode (texts : AddrTexts) : UdpEncoder → SocketAddr × Bytes → Option Bytes
  | .relay, frame => some (writeUdpFrame texts frame.1 frame.2)
  | .desktop, frame => some (writeUdpFrameBlocking texts frame.1 frame.2)
  | .commandLine, frame => encodeUdpFrame (texts.display frame.1) frame.2

/-- The stream of several frames. -/
def UdpEncoder.encodeAll (texts : AddrTexts) (encoder : UdpEncoder)
    (frames : List (SocketAddr × Bytes)) : Option Bytes :=
  (frames.mapM (encoder.encode texts)).map List.flatten

/-! ## Decoders -/

/-- Four exact reads; the remote address is looked at before the payload is read. -/
def frameReader {ρ : Type} (remote : Bytes → Option ρ) : Reader UInt8 (ρ × Bytes) :=
  .exact 2 (fun addrLen => .exact (beValue addrLen) (fun addrBytes =>
    match remote addrBytes with
    | none => .fail
    | some remoteAddr =>
      .exact 4 (fun payloadLen => .exact (beValue payloadLen) (fun payload =>
        .done (remoteAddr, payload)))))

/-- The relay's. -/
def readUdpFrame (texts : AddrTexts) : Reader UInt8 (SocketAddr × Bytes) :=
  frameReader (fun addrBytes => (fromUtf8 addrBytes).bind texts.parse)

/-- The desktop client's. -/
def readUdpFrameBlocking (texts : AddrTexts) : Reader UInt8 (SocketAddr × Bytes) :=
  frameReader (fun addrBytes => (fromUtf8 addrBytes).bind texts.parse)

/-- The command-line client's, which keeps the text of the remote address. -/
def RelayShareClient.readUdpFrame : Reader UInt8 (Text × Bytes) :=
  frameReader (fun addrBytes => some (fromUtf8Lossy addrBytes))

open List

section Frames

variable {ρ : Type} {remote : Bytes → Option ρ} {remoteBytes payload : Bytes} {remoteAddr : ρ}

theorem beValue_length {width : Nat} {bytes : Bytes} (h : bytes.length < 256 ^ width) :
    beValue (beBytes width bytes.length) = bytes.length := by
  rw [beValue_beBytes, Nat.mod_eq_of_lt h]

section

variable (hremote : remote remoteBytes = some remoteAddr) (hshort : remoteBytes.length < 2 ^ 16)

include hremote hshort

/-- A frame is read from the stream that begins with it. -/
theorem parse_udpFrame (hpayload : payload.length < 2 ^ 32) (suffix : Bytes) :
    (frameReader remote).parse (udpFrame remoteBytes payload ++ suffix) =
      some ((remoteAddr, payload), suffix) := by
  simp only [frameReader, udpFrame, append_assoc]
  rw [parse_exact (beBytes_length 2 _), parse_exact (beValue_length hshort).symm]
  simp only [hremote]
  rw [parse_exact (beBytes_length 4 _), parse_exact (beValue_length hpayload).symm]
  rfl

/-- A frame is returned in the event that brings its last byte, if that is a byte of the payload
or not the last byte of the event. -/
theorem listen_udpFrame (hpayload : payload.length < 2 ^ 32) {suffix : Bytes}
    (hmore : payload ++ suffix ≠ []) :
    (frameReader remote).listen (udpFrame remoteBytes payload ++ suffix) =
      .finished (remoteAddr, payload) suffix := by
  have hlong : beBytes 4 payload.length ++ (payload ++ suffix) ≠ [] := by simp [hmore]
  simp only [frameReader, udpFrame, append_assoc]
  rw [listen_exact (beBytes_length 2 _) (by simp [hmore]),
    listen_exact (beValue_length hshort).symm (append_ne_nil_of_right_ne_nil _ hlong)]
  simp only [hremote]
  rw [listen_exact (beBytes_length 4 _) hlong,
    listen_exact (beValue_length hpayload).symm hmore]
  rfl

/-- An empty frame is waited for when it is complete. -/
theorem listen_empty_frame :
    (frameReader remote).listen (udpFrame remoteBytes []) =
      .waiting (.exact 0 (fun payload => .done (remoteAddr, payload))) [] := by
  have hlong : beBytes 4 0 ++ [] ≠ [] := by simp [beBytes]
  simp only [frameReader, udpFrame, length_nil]
  rw [listen_exact (beBytes_length 2 _) (by simp [beBytes]),
    listen_exact (beValue_length hshort).symm (append_ne_nil_of_right_ne_nil _ hlong)]
  simp only [hremote]
  rw [listen_exact (beBytes_length 4 _) hlong]
  rfl

end

end Frames

/-! ## Events -/

/-- A frame whose lengths are those of its parts. -/
structure UdpFrame where
  remote : Text
  payload : Bytes
  remote_fits : (toUtf8 remote).length < 2 ^ 16
  payload_fits : payload.length < 2 ^ 32

namespace UdpFrame

def bytes (frame : UdpFrame) : Bytes := udpFrame (toUtf8 frame.remote) frame.payload

/-- What the command-line client returns for the frame. -/
def returned (frame : UdpFrame) : Text × Bytes := (frame.remote, frame.payload)

variable {frame : UdpFrame}

theorem bytes_ne_nil (frame : UdpFrame) : frame.bytes ≠ [] := by
  simp [bytes, udpFrame, beBytes]

theorem decoded_remote (remote : Text) :
    (fun addrBytes => some (fromUtf8Lossy addrBytes)) (toUtf8 remote) = some remote :=
  congrArg some (fromUtf8Lossy_toUtf8 remote)

theorem listen_bytes {suffix : Bytes} (h : frame.payload ++ suffix ≠ []) :
    RelayShareClient.readUdpFrame.listen (frame.bytes ++ suffix) =
      .finished frame.returned suffix :=
  listen_udpFrame (decoded_remote frame.remote) frame.remote_fits frame.payload_fits h

theorem listen_empty (h : frame.payload = []) :
    ∃ waiting, RelayShareClient.readUdpFrame.listen frame.bytes = .waiting waiting [] := by
  rw [bytes, h]
  exact ⟨_, listen_empty_frame (decoded_remote frame.remote) frame.remote_fits⟩

theorem isLoop_readUdpFrame : RelayShareClient.readUdpFrame.IsLoop where
  neverFails := fun _ _ _ _ => trivial
  begins := ⟨1, _, rfl⟩

/-- A part of a frame is waited for. -/
theorem listen_part {part rest : Bytes} (hbytes : part ++ rest = frame.bytes) (hrest : rest ≠ []) :
    ∃ waiting held, RelayShareClient.readUdpFrame.listen part = .waiting waiting held := by
  rcases isLoop_readUdpFrame.neverFails.listen part with
    ⟨value, extra, hdone, _⟩ | ⟨waiting, held, hwait, _⟩
  · exfalso
    have hjoin := RelayShareClient.readUdpFrame.listen_append part hrest
    rw [hbytes, hdone] at hjoin
    by_cases hempty : frame.payload = []
    · obtain ⟨waiting, hwaiting⟩ := listen_empty hempty
      rw [hwaiting] at hjoin
      cases hjoin
    · have hwhole : RelayShareClient.readUdpFrame.listen (frame.bytes ++ []) =
          .finished frame.returned [] := listen_bytes (by simpa using hempty)
      rw [append_nil, hjoin] at hwhole
      have hextra : extra ++ rest = [] := by injection hwhole
      exact hrest (append_eq_nil_iff.mp hextra).2
  · exact ⟨waiting, held, hwait⟩

/-- Whole frames are returned, if something follows the last one or it has a payload. -/
theorem serve_frames (frames : List UdpFrame) {tail held : Bytes}
    {waiting : Reader UInt8 (Text × Bytes)}
    (hwait : RelayShareClient.readUdpFrame.listen tail = .waiting waiting held)
    (hlast : tail ≠ [] ∨ ∀ frame, frames.getLast? = some frame → frame.payload ≠ []) :
    RelayShareClient.readUdpFrame.serve (frames.length + 1) RelayShareClient.readUdpFrame
        (frames.flatMap bytes ++ tail) =
      some (frames.map returned, ⟨waiting, held⟩) := by
  induction frames with
  | nil => simp only [flatMap_nil, nil_append, serve, hwait, map_nil]
  | cons frame frames ih =>
    have hmore : frame.payload ++ (frames.flatMap bytes ++ tail) ≠ [] := by
      cases frames with
      | nil =>
        rcases hlast with htail | hpayload
        · simp [htail]
        · simp [hpayload frame rfl]
      | cons next later => simp [next.bytes_ne_nil]
    have hlater : tail ≠ [] ∨ ∀ frame, frames.getLast? = some frame → frame.payload ≠ [] := by
      refine hlast.imp_right (fun hall last hlastOf => hall last ?_)
      rw [List.getLast?_cons, hlastOf]
      rfl
    rw [flatMap_cons, append_assoc, length_cons, serve, listen_bytes hmore]
    simp only [ih hlater, Option.map_some, map_cons]

end UdpFrame

/-- The events have brought `count` of the frames, and not all of the next one. -/
structure Received (frames : List UdpFrame) (chunks : List Bytes) (count : Nat) : Prop where
  events : ∀ chunk ∈ chunks, chunk ≠ []
  whole : (frames.take count).flatMap UdpFrame.bytes <+: chunks.flatten
  sent : chunks.flatten <+: frames.flatMap UdpFrame.bytes
  next : ∀ frame, frames[count]? = some frame →
    chunks.flatten.length < ((frames.take (count + 1)).flatMap UdpFrame.bytes).length

open UdpFrame

namespace Received

variable {frames : List UdpFrame} {chunks : List Bytes} {count : Nat}

/-- What has arrived behind the whole frames is waited for. -/
theorem tail_waits (h : Received frames chunks count) :
    ∃ tail waiting held, chunks.flatten = (frames.take count).flatMap bytes ++ tail ∧
      RelayShareClient.readUdpFrame.listen tail = .waiting waiting held := by
  obtain ⟨tail, htail⟩ := h.whole
  refine ⟨tail, ?_⟩
  have hsent := h.sent
  rw [← htail] at hsent
  cases hget : frames[count]? with
  | none =>
    have hall : frames.take count = frames :=
      take_of_length_le (List.getElem?_eq_none_iff.mp hget)
    rw [hall] at hsent
    have hnil : tail = [] := by
      have hlen := hsent.length_le
      rw [length_append] at hlen
      exact eq_nil_of_length_eq_zero (by omega)
    subst hnil
    exact ⟨_, [], htail.symm, rfl⟩
  | some frame =>
    have hnext := h.next frame hget
    have htake : frames.take (count + 1) = frames.take count ++ [frame] := by
      rw [take_add_one, hget]
      rfl
    have hsplit : frames.flatMap bytes = (frames.take count).flatMap bytes ++
        (frame.bytes ++ (frames.drop (count + 1)).flatMap bytes) := by
      nth_rewrite 1 [← take_append_drop (count + 1) frames]
      rw [htake]
      simp
    rw [hsplit] at hsent
    rw [htake, ← htail, flatMap_append] at hnext
    have hpart : tail <+: frame.bytes := by
      have hlonger := (prefix_append_right_inj _).mp hsent
      refine prefix_of_prefix_length_le hlonger (prefix_append _ _) ?_
      simp at hnext
      omega
    obtain ⟨rest, hrest⟩ := hpart
    have hne : rest ≠ [] := by
      intro hnil
      rw [hnil, append_nil] at hrest
      rw [hrest] at hnext
      simp at hnext
    obtain ⟨waiting, held, hwait⟩ := listen_part hrest hne
    exact ⟨waiting, held, htail.symm, hwait⟩

end Received

/-- Where bytes that were put back come again, the client has returned the frames that have arrived
unless the last one has an empty payload and nothing follows it. -/
theorem frames_returned_iff {frames : List UdpFrame} {chunks : List Bytes} {count : Nat}
    (h : Received frames chunks count) :
    (RelayShareClient.readUdpFrame.receiveAll chunks).map Prod.fst =
        some ((frames.take count).map UdpFrame.returned) ↔
      ¬ (chunks.flatten = (frames.take count).flatMap UdpFrame.bytes ∧
        ∃ frame, (frames.take count).getLast? = some frame ∧ frame.payload = []) := by
  obtain ⟨tail, waiting, held, hflat, hwait⟩ := h.tail_waits
  constructor
  · intro hreturned hlate
    obtain ⟨hexact, last, hlast, hempty⟩ := hlate
    -- all but the last frame are returned, and the client waits behind its bytes
    obtain ⟨first, hfirst⟩ := List.getLast?_eq_some_iff.mp hlast
    obtain ⟨stuck, hstuck⟩ := listen_empty hempty
    have hserve := serve_frames first hstuck (.inl last.bytes_ne_nil)
    have hbytes : chunks.flatten = first.flatMap bytes ++ last.bytes := by
      rw [hexact, hfirst]
      simp
    rw [← hbytes] at hserve
    rw [isLoop_readUdpFrame.receiveAll_eq h.events hserve, hfirst] at hreturned
    simp at hreturned
  · intro hnot
    have hlast : tail ≠ [] ∨
        ∀ frame, (frames.take count).getLast? = some frame → frame.payload ≠ [] := by
      by_cases htail : tail = []
      · refine .inr (fun frame hframe hempty => hnot ⟨?_, frame, hframe, hempty⟩)
        rw [hflat, htail, append_nil]
      · exact .inl htail
    have hserve := serve_frames _ hwait hlast
    rw [← hflat] at hserve
    rw [isLoop_readUdpFrame.receiveAll_eq h.events hserve]
    rfl

/-- An empty datagram and one of a byte, in events that cut both. -/
def twoFrames : List UdpFrame :=
  [⟨['a'], [], by decide, by decide⟩, ⟨['b'], [7], by decide, by decide⟩]

/-- An empty datagram, and one byte of the next frame. -/
theorem frames_returned_after_next_byte :
    (RelayShareClient.readUdpFrame.receiveAll [[0, 1, 0x61, 0], [0, 0, 0], [0]]).map Prod.fst =
      some [(['a'], [])] :=
  (@frames_returned_iff twoFrames [[0, 1, 0x61, 0], [0, 0, 0], [0]] 1
    ⟨by decide, by decide, by decide, by decide⟩).mpr (by decide)

/-- All of an empty datagram's frame has arrived, and it is not returned. -/
theorem empty_frame_withheld :
    Received twoFrames [[0, 1, 0x61], [0, 0, 0, 0]] 1 ∧
      (RelayShareClient.readUdpFrame.receiveAll [[0, 1, 0x61], [0, 0, 0, 0]]).map Prod.fst =
        some [] :=
  ⟨⟨by decide, by decide, by decide, by decide⟩, by decide⟩

/-! ## One language -/

section OneLanguage

variable {texts : AddrTexts} {encoder : UdpEncoder}

theorem parse_displayed (texts : AddrTexts) (addr : SocketAddr) {payload : Bytes}
    (hpayload : payload.length < 2 ^ 32) (suffix : Bytes) :
    (readUdpFrame texts).parse (udpFrame (toUtf8 (texts.display addr)) payload ++ suffix) =
      some ((addr, payload), suffix) := by
  refine parse_udpFrame ?_ (texts.display_short addr) hpayload suffix
  rw [fromUtf8_toUtf8, Option.bind_some, texts.parse_display]

theorem encode_eq {frame : SocketAddr × Bytes} (h : frame.2.length < 2 ^ 32) :
    encoder.encode texts frame = some (udpFrame (toUtf8 (texts.display frame.1)) frame.2) := by
  cases encoder with
  | relay | desktop => rfl
  | commandLine =>
    rw [UdpEncoder.encode, encodeUdpFrame]
    exact if_pos ⟨texts.display_short frame.1, h⟩

/-- Every encoder writes the same stream. -/
theorem encodeAll_eq {frames : List (SocketAddr × Bytes)}
    (h : ∀ frame ∈ frames, frame.2.length < 2 ^ 32) :
    encoder.encodeAll texts frames =
      some (frames.flatMap (fun frame => udpFrame (toUtf8 (texts.display frame.1)) frame.2)) := by
  have hmap : frames.mapM (encoder.encode texts) =
      some (frames.map (fun frame => udpFrame (toUtf8 (texts.display frame.1)) frame.2)) := by
    induction frames with
    | nil => rfl
    | cons frame frames ih =>
      rw [mapM_cons, encode_eq (h frame mem_cons_self),
        ih (fun other hother => h other (mem_cons_of_mem frame hother))]
      rfl
  rw [UdpEncoder.encodeAll, hmap, Option.map_some, flatMap_def]

/-- The relay reads one frame on every split. -/
theorem pull_udpFrame {addr : SocketAddr} {payload : Bytes} (hpayload : payload.length < 2 ^ 32)
    {segments : List Bytes}
    (hsplit : IsSplit (udpFrame (toUtf8 (texts.display addr)) payload) segments) :
    (readUdpFrame texts).pull segments = some ((addr, payload), []) := by
  have hparse := parse_displayed texts addr hpayload []
  rw [append_nil, ← hsplit.flatten] at hparse
  obtain ⟨rest, hpull, hrest, hne⟩ := pull_of_parse hsplit.nonempty hparse
  rw [hpull, eq_nil_of_flatten hne hrest]

/-- What is encoded for a reply reaches the relay as a reply to the address, on every split. -/
def ReplyReaches (texts : AddrTexts) (addr : SocketAddr) (encoded : Bytes → Option Bytes) : Prop :=
  ∀ reply : Bytes, reply.length < 2 ^ 32 → ∃ bytes, encoded reply = some bytes ∧
    ∀ segments, IsSplit bytes segments →
      (readUdpFrame texts).pull segments = some ((addr, reply), [])

/-- The four parts of a frame, each of which is read by itself. -/
def udpFields (texts : AddrTexts) (frame : SocketAddr × Bytes) : List Bytes :=
  let remoteBytes := toUtf8 (texts.display frame.1)
  [beBytes 2 remoteBytes.length, remoteBytes, beBytes 4 frame.2.length, frame.2]

/-- The parts together are the stream. -/
theorem udpFields_flatten (frames : List (SocketAddr × Bytes)) :
    (frames.flatMap (udpFields texts)).flatten =
      frames.flatMap (fun frame => udpFrame (toUtf8 (texts.display frame.1)) frame.2) := by
  induction frames with
  | nil => rfl
  | cons frame frames ih =>
    simp only [flatMap_cons, flatten_append, ih]
    simp [udpFields, udpFrame]

/-- The command-line client reads these parts one by one. -/
theorem follows_udpFields (texts : AddrTexts) {frames : List (SocketAddr × Bytes)}
    (hframes : ∀ frame ∈ frames, frame.2 ≠ [] ∧ frame.2.length < 2 ^ 32) :
    RelayShareClient.readUdpFrame.Follows RelayShareClient.readUdpFrame
      (frames.flatMap (udpFields texts))
      (frames.map (fun frame => (texts.display frame.1, frame.2))) := by
  induction frames with
  | nil => exact .stop
  | cons frame frames ih =>
    obtain ⟨hpayload, hfits⟩ := hframes frame mem_cons_self
    have hremote := (texts.display_length frame.1).1
    rw [← texts.toUtf8_display] at hremote
    have hlater := ih (fun other hother => hframes other (mem_cons_of_mem frame hother))
    have hdone : goOn RelayShareClient.readUdpFrame
        (.done (fromUtf8Lossy (toUtf8 (texts.display frame.1)), frame.2)) =
        some ([(texts.display frame.1, frame.2)], RelayShareClient.readUdpFrame) := by
      rw [fromUtf8Lossy_toUtf8]
      rfl
    show RelayShareClient.readUdpFrame.Follows _ (_ :: _ :: _ :: _ :: _)
      ([] ++ ([] ++ ([] ++ ([(texts.display frame.1, frame.2)] ++ _))))
    exact .read (beBytes_length 2 _) (by simp [beBytes]) rfl
      (.read (beValue_length (texts.display_short frame.1)).symm (length_pos_iff.mp hremote) rfl
        (.read (beBytes_length 4 _) (by simp [beBytes]) rfl
          (.read (beValue_length hfits).symm hpayload hdone hlater)))

theorem fromUtf8Lossy_length_le (bytes : Bytes) : (fromUtf8Lossy bytes).length ≤ bytes.length := by
  have hrounds : ∀ rounds (bytes : Bytes), (utf8Chunks rounds bytes).length ≤ rounds := by
    intro rounds
    induction rounds with
    | zero => exact fun bytes => by cases bytes <;> simp [utf8Chunks]
    | succ rounds ih =>
      intro bytes
      cases bytes with
      | nil => simp [utf8Chunks]
      | cons b rest => exact Nat.succ_le_succ (ih _)
  rw [fromUtf8Lossy, length_map]
  exact hrounds _ _

/-- A frame is returned for at least the bytes of its lengths, its text and its payload. -/
def leastBytes (returned : Text × Bytes) : Nat := 6 + returned.1.length + returned.2.length

/-- No frame is returned for fewer bytes than it has. -/
theorem atLeast_readUdpFrame : AtLeast leastBytes 0 RelayShareClient.readUdpFrame := by
  intro addrLen haddrLen addrBytes haddrBytes payloadLen hpayloadLen payload hpayload
  have htext := fromUtf8Lossy_length_le addrBytes
  show 6 + (fromUtf8Lossy addrBytes).length + payload.length ≤ _
  omega

/-- The stream has just the bytes that its frames need. -/
theorem sum_leastBytes (frames : List (SocketAddr × Bytes)) :
    (frames.flatMap (udpFields texts)).flatten.length =
      ((frames.map (fun frame => (texts.display frame.1, frame.2))).map leastBytes).sum := by
  induction frames with
  | nil => rfl
  | cons frame frames ih =>
    simp only [flatMap_cons, flatten_append, length_append, ih, map_cons, sum_cons]
    simp [udpFields, leastBytes, texts.toUtf8_display]
    omega

end OneLanguage

/-- Every encoder is understood by the relay and by the desktop client, on every split, and replies
of both clients reach the relay; the command-line client, which loses what an event brings too
much, returns the frames exactly when every part of a frame ends with an event. -/
theorem udp_framing_agrees_iff (texts : AddrTexts) (encoder : UdpEncoder)
    (frames : List (SocketAddr × Bytes))
    (hframes : ∀ frame ∈ frames, frame.2 ≠ [] ∧ frame.2.length < 2 ^ 32) :
    ∃ stream, encoder.encodeAll texts frames = some stream ∧
      ∀ segments, IsSplit stream segments →
        (∀ rounds, frames.length < rounds →
          (readUdpFrame texts).pullAll rounds segments = (frames, []) ∧
          (readUdpFrameBlocking texts).pullAll rounds segments = (frames, [])) ∧
        (∀ frame ∈ frames,
          ReplyReaches texts frame.1 (fun reply =>
            some (writeUdpFrameBlocking texts frame.1 reply)) ∧
          ReplyReaches texts frame.1 (encodeUdpFrame (texts.display frame.1))) ∧
        (RelayShareClient.readUdpFrame.hearAll segments =
            some (frames.map (fun frame => (texts.display frame.1, frame.2)),
              ⟨RelayShareClient.readUdpFrame, []⟩) ↔
          EndWithEvents [] (frames.flatMap (udpFields texts)) segments) := by
  have hsizes : ∀ frame ∈ frames, frame.2.length < 2 ^ 32 := fun frame hframe =>
    (hframes frame hframe).2
  refine ⟨_, encodeAll_eq hsizes, fun segments hsplit => ⟨fun rounds hrounds => ?_, ?_, ?_⟩⟩
  · have hread : (readUdpFrame texts).pullAll rounds segments = (frames.map id, []) :=
      pullAll_encoded
        (fun frame hframe suffix => parse_displayed texts frame.1 (hsizes frame hframe) suffix)
        rfl hsplit hrounds
    rw [List.map_id] at hread
    exact ⟨hread, hread⟩
  · intro frame _
    refine ⟨fun reply hreply => ⟨_, rfl, fun _ hsegments => pull_udpFrame hreply hsegments⟩, ?_⟩
    intro reply hreply
    exact ⟨_, if_pos ⟨texts.display_short frame.1, hreply⟩,
      fun _ hsegments => pull_udpFrame hreply hsegments⟩
  · have hflat := hsplit.flatten
    rw [← udpFields_flatten] at hflat
    have hfollows := follows_udpFields texts hframes
    refine hear_iff atLeast_readUdpFrame hfollows atLeast_readUdpFrame ?_ hflat
      hsplit.nonempty (fun field hfield => ?_)
    · rw [sum_leastBytes, Nat.zero_add]
    · cases frames with
      | nil => cases hfield
      | cons frame frames =>
        cases hfield
        simp [beBytes]

/-! ### Addresses as raw texts -/

/-- The bytes of an address, each as two characters. -/
def rawDisplay (addr : SocketAddr) : Text :=
  (addr.ip.octets ++ beBytes 2 addr.port.toNat).flatMap
    (fun b => [Char.ofNat (b.toNat / 16), Char.ofNat (b.toNat % 16)])

def rawBytes : Text → Bytes
  | high :: low :: rest => UInt8.ofNat (16 * high.toNat + low.toNat) :: rawBytes rest
  | _ => []

def rawParse (text : Text) : Option SocketAddr :=
  let bytes := rawBytes text
  let port := UInt16.ofNat (beValue (bytes.drop (bytes.length - 2)))
  (IpAddr.ofOctets (bytes.take (bytes.length - 2))).map (SocketAddr.mk · port)

theorem toNat_ofNat_of_lt : ∀ n < 16, (Char.ofNat n).toNat = n := by decide

theorem rawDisplay_bytes (addr : SocketAddr) :
    rawBytes (rawDisplay addr) = addr.ip.octets ++ beBytes 2 addr.port.toNat := by
  unfold rawDisplay
  induction addr.ip.octets ++ beBytes 2 addr.port.toNat with
  | nil => rfl
  | cons b rest ih =>
    have hb := b.toNat_lt
    simp only [flatMap_cons, cons_append, nil_append, rawBytes, ih]
    rw [toNat_ofNat_of_lt _ (by omega), toNat_ofNat_of_lt _ (by omega), Nat.div_add_mod,
      UInt8.ofNat_toNat]

theorem rawParse_rawDisplay (addr : SocketAddr) : rawParse (rawDisplay addr) = some addr := by
  obtain ⟨ip, port⟩ := addr
  have hlength : (ip.octets ++ beBytes 2 port.toNat).length - 2 = ip.octets.length := by simp
  have hlt : port.toNat < 256 ^ 2 := port.toNat_lt
  have hport : UInt16.ofNat (beValue (beBytes 2 port.toNat)) = port := by
    rw [beValue_beBytes, Nat.mod_eq_of_lt hlt, UInt16.ofNat_toNat]
  simp only [rawParse, rawDisplay_bytes, hlength, take_left, drop_left, hport,
    ofOctets_octets, Option.map_some]

def rawTexts : AddrTexts where
  display := rawDisplay
  parse := rawParse
  parse_display := rawParse_rawDisplay
  display_ascii := by
    intro addr c hc
    obtain ⟨b, _, hb⟩ := mem_flatMap.mp hc
    have hlt := b.toNat_lt
    simp only [mem_cons, not_mem_nil, or_false] at hb
    rcases hb with rfl | rfl
    all_goals
      rw [toNat_ofNat_of_lt _ (by omega)]
      omega
  display_length := by
    intro addr
    cases hip : addr.ip <;> simp [rawDisplay, hip, IpAddr.octets]

def pingFrame : SocketAddr × Bytes := (⟨.v4 (.new 192 0 2 1), 19132⟩, [1])

/-- A frame whose parts come in an event each is returned. -/
theorem udp_framing_agrees_on_ping :
    RelayShareClient.readUdpFrame.hearAll (udpFields rawTexts pingFrame) =
      some ([(rawDisplay pingFrame.1, [1])], ⟨RelayShareClient.readUdpFrame, []⟩) := by
  obtain ⟨stream, hstream, hdecoded⟩ :=
    udp_framing_agrees_iff rawTexts .commandLine [pingFrame] (by decide)
  have hsplit : IsSplit stream (udpFields rawTexts pingFrame) :=
    ⟨Option.some.inj (Eq.trans (by decide +kernel) hstream), by decide +kernel⟩
  exact (hdecoded _ hsplit).2.2.mpr (fun k _ => ⟨k + 1, rfl⟩)

/-- The same frame in one event: what stands behind the length of the address is lost, and the
client waits for an address. -/
theorem frame_in_one_event_lost :
    (RelayShareClient.readUdpFrame.hearAll
        [writeUdpFrame rawTexts pingFrame.1 pingFrame.2]).map (fun p => (p.1, p.2.buffer)) =
      some ([], []) := by
  decide +kernel

end FerrumProxy
