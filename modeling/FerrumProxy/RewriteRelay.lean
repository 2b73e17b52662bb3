import FerrumProxy.HttpRewrite
import FerrumProxy.TcpSegmentation

/-!
# The rewriting relay

For a target that is written as a URL the client's bytes pass `handle_chunk`.  It collects the first
reads until they hold a whole request head and rewrites that head; afterwards it judges every read
on its own.
-/

namespace FerrumProxy

open Wire Str

/-- The variables that `handle_chunk` captures. -/
structure RewriteState where
  awaitingInitialHttpHeader : Bool
  pendingInitialHttp : Bytes := []

open List

section

variable (url : UrlParser) (target : ProxyTarget) (forwardedProto : Text)

def handleChunk (s : RewriteState) (chunk : Bytes) : RewriteState × Option Bytes :=
  if s.awaitingInitialHttpHeader then
    let merged := s.pendingInitialHttp ++ chunk
    if (headerEnd merged).isNone then ({ s with pendingInitialHttp := merged }, none)
    else
      ({ awaitingInitialHttpHeader := false },
        some (if isLikelyHttpRequest merged then
          rewriteHttpRequest url merged target forwardedProto else merged))
  else
    (s, some (if target.urlProtocol.isSome && isLikelyHttpRequest chunk then
      rewriteHttpRequest url chunk target forwardedProto else chunk))

/-- The bytes written for some chunks, and the state after them. -/
def handleChunks (s : RewriteState) : List Bytes → RewriteState × Bytes
  | [] => (s, [])
  | chunk :: rest =>
    let (next, outgoing) := handleChunk url target forwardedProto s chunk
    let (last, written) := handleChunks next rest
    (last, outgoing.getD [] ++ written)

/-- Everything the client-to-target half of `spawn_rewrite_relay` writes. -/
def clientToTarget (initialClientPayload : Bytes) (reads : List Bytes) : Bytes :=
  let (last, written) := handleChunks url target forwardedProto
    { awaitingInitialHttpHeader := target.urlProtocol.isSome } (initialClientPayload :: reads)
  written ++ last.pendingInitialHttp

/-! ### The first head, and each read after it -/

/-- What is written for the chunks while the first head is incomplete. -/
def relayFrom (pending : Bytes) : List Bytes → Bytes
  | [] => pending
  | chunk :: rest =>
    if (headerEnd (pending ++ chunk)).isNone then relayFrom (pending ++ chunk) rest
    else rewriteChunk url target forwardedProto (pending ++ chunk) ++
      rest.flatMap (rewriteChunk url target forwardedProto)

variable {url target forwardedProto}

theorem handleChunks_after (hurl : target.urlProtocol.isSome = true) (chunks : List Bytes) :
    handleChunks url target forwardedProto { awaitingInitialHttpHeader := false } chunks =
      ({ awaitingInitialHttpHeader := false },
        chunks.flatMap (rewriteChunk url target forwardedProto)) := by
  induction chunks with
  | nil => rfl
  | cons chunk rest ih =>
    simp only [handleChunks, handleChunk, Bool.false_eq_true, if_false, ih, hurl, Bool.true_and,
      Option.getD_some, flatMap_cons, rewriteChunk]

theorem handleChunks_relayFrom (hurl : target.urlProtocol.isSome = true) (chunks : List Bytes)
    (pending : Bytes) :
    (handleChunks url target forwardedProto ⟨true, pending⟩ chunks).2 ++
        (handleChunks url target forwardedProto ⟨true, pending⟩ chunks).1.pendingInitialHttp =
      relayFrom url target forwardedProto pending chunks := by
  induction chunks generalizing pending with
  | nil => rfl
  | cons chunk rest ih =>
    by_cases hnone : (headerEnd (pending ++ chunk)).isNone = true
    · simp only [handleChunks, handleChunk, if_true, hnone, relayFrom, Option.getD_none, nil_append]
      exact ih (pending ++ chunk)
    · simp only [handleChunks, handleChunk, if_true, if_neg hnone, relayFrom,
        handleChunks_after hurl, Option.getD_some, append_nil, rewriteChunk]

theorem clientToTarget_eq (hurl : target.urlProtocol.isSome = true) (initial : Bytes)
    (reads : List Bytes) :
    clientToTarget url target forwardedProto initial reads =
      relayFrom url target forwardedProto [] (initial :: reads) := by
  rw [← handleChunks_relayFrom hurl, clientToTarget, hurl]

/-! ### Streams without a second head -/

/-- The client's stream as an initial payload and later reads. -/
structure ClientReads (stream initial : Bytes) (reads : List Bytes) : Prop where
  stream_eq : initial ++ reads.flatten = stream
  nonempty : ∀ chunk ∈ reads, chunk ≠ []
  fits : ∀ chunk ∈ reads, chunk.length ≤ bufferSize

variable (url target forwardedProto)

/-- Rewriting changes no head, of a size that one read can bring, that starts in the bytes. -/
def NoHeadChanges (bytes : Bytes) : Prop :=
  ∀ start headEnd, headerEnd (bytes.drop start) = some headEnd → headEnd + 4 ≤ bufferSize →
    rewriteChunk url target forwardedProto ((bytes.drop start).take (headEnd + 4)) =
      (bytes.drop start).take (headEnd + 4)

/-- Behind the first blank line no head starts that rewriting would change. -/
def OneRewrittenHead (stream : Bytes) : Prop :=
  ∀ headEnd, headerEnd stream = some headEnd →
    NoHeadChanges url target forwardedProto (stream.drop (headEnd + 4))

variable {url target forwardedProto} {stream bytes : Bytes}

theorem NoHeadChanges.drop (h : NoHeadChanges url target forwardedProto bytes) (n : Nat) :
    NoHeadChanges url target forwardedProto (bytes.drop n) := by
  intro start headEnd
  rw [drop_drop]
  exact h (n + start) headEnd

/-- A read at the front of the bytes is written as it is. -/
theorem NoHeadChanges.rewriteChunk_eq {chunk rest : Bytes}
    (h : NoHeadChanges url target forwardedProto (chunk ++ rest))
    (hfits : chunk.length ≤ bufferSize) : rewriteChunk url target forwardedProto chunk = chunk := by
  cases hhead : headerEnd chunk with
  | none => exact rewriteChunk_of_none url target forwardedProto hhead
  | some n =>
    have hlen := headerEnd_le hhead
    have hwhole : headerEnd (chunk ++ rest) = some n := by
      have htake : headerEnd ((chunk ++ rest).take chunk.length) = some n := by
        rwa [take_left]
      exact ((headerEnd_take _ _ n).mp htake).1
    have hsame := h 0 n hwhole (by omega)
    rw [drop_zero, take_append_of_le_length hlen] at hsame
    rw [rewriteChunk_eq_append url target forwardedProto hhead, hsame, take_append_drop]

theorem NoHeadChanges.flatMap_eq {chunks : List Bytes}
    (h : NoHeadChanges url target forwardedProto chunks.flatten)
    (hfits : ∀ chunk ∈ chunks, chunk.length ≤ bufferSize) :
    chunks.flatMap (rewriteChunk url target forwardedProto) = chunks.flatten := by
  induction chunks with
  | nil => rfl
  | cons chunk rest ih =>
    rw [flatten_cons] at h ⊢
    have hrest : NoHeadChanges url target forwardedProto rest.flatten := by
      have hdrop := h.drop chunk.length
      rwa [drop_left] at hdrop
    rw [flatMap_cons, h.rewriteChunk_eq (hfits chunk mem_cons_self),
      ih hrest (fun other hother => hfits other (mem_cons_of_mem chunk hother))]

theorem relayFrom_eq (h : OneRewrittenHead url target forwardedProto stream) (chunks : List Bytes)
    (pending : Bytes) (hstream : pending ++ chunks.flatten = stream)
    (hpending : headerEnd pending = none)
    (hfits : ∀ chunk ∈ chunks.tail, chunk.length ≤ bufferSize) :
    relayFrom url target forwardedProto pending chunks =
      rewriteChunk url target forwardedProto stream := by
  induction chunks generalizing pending with
  | nil =>
    rw [flatten_nil, append_nil] at hstream
    rw [relayFrom, ← hstream, rewriteChunk_of_none url target forwardedProto hpending]
  | cons chunk rest ih =>
    rw [flatten_cons, ← append_assoc] at hstream
    rw [relayFrom]
    split
    · rename_i hnone
      exact ih (pending ++ chunk) hstream (Option.isNone_iff_eq_none.mp hnone)
        (fun other hother => hfits other (mem_of_mem_tail hother))
    · rename_i hsome
      obtain ⟨n, hn⟩ := Option.ne_none_iff_exists'.mp
        (fun hnone => hsome (Option.isNone_iff_eq_none.mpr hnone))
      have hlen := headerEnd_le hn
      have hhead : headerEnd stream = some n := by
        have htake : headerEnd (stream.take (pending ++ chunk).length) = some n := by
          rwa [← hstream, take_left]
        exact ((headerEnd_take _ _ n).mp htake).1
      have hrest : NoHeadChanges url target forwardedProto rest.flatten := by
        have hdrop := (h n hhead).drop ((pending ++ chunk).length - (n + 4))
        rwa [drop_drop, Nat.add_sub_cancel' hlen, ← hstream, drop_left] at hdrop
      rw [hrest.flatMap_eq hfits, rewriteChunk_eq_append url target forwardedProto hn,
        rewriteChunk_eq_append url target forwardedProto hhead, ← hstream,
        take_append_of_le_length hlen, drop_append_of_le_length hlen,
        append_assoc]

/-! ### Reads that begin at a head -/

/-- The bytes one by one. -/
def singleBytes (bytes : Bytes) : List Bytes := bytes.map (fun b => [b])

theorem flatMap_singleBytes (bytes : Bytes) :
    (singleBytes bytes).flatMap (rewriteChunk url target forwardedProto) = bytes := by
  have hone : ∀ b : UInt8, rewriteChunk url target forwardedProto [b] = [b] := by
    intro b
    apply rewriteChunk_of_none
    cases hhead : headerEnd [b] with
    | none => rfl
    | some n => exact absurd (headerEnd_le hhead) (by simp)
  rw [singleBytes, flatMap_map]
  simp [hone]

theorem clientReads_concat {initial rest : Bytes} (reads : List Bytes)
    (hstream : initial ++ reads.flatten ++ rest = stream)
    (hreads : ∀ chunk ∈ reads, chunk ≠ [] ∧ chunk.length ≤ bufferSize) :
    ClientReads stream initial (reads ++ singleBytes rest) := by
  have hone : ∀ chunk ∈ singleBytes rest, chunk ≠ [] ∧ chunk.length ≤ bufferSize := by
    intro chunk hchunk
    obtain ⟨b, -, rfl⟩ := List.mem_map.mp hchunk
    exact ⟨cons_ne_nil b [], (by decide : 1 ≤ bufferSize)⟩
  have hall : ∀ chunk ∈ reads ++ singleBytes rest, chunk ≠ [] ∧ chunk.length ≤ bufferSize :=
    fun chunk hchunk => (mem_append.mp hchunk).elim (hreads chunk) (hone chunk)
  refine ⟨?_, fun chunk hchunk => (hall chunk hchunk).1, fun chunk hchunk => (hall chunk hchunk).2⟩
  rw [flatten_append, ← append_assoc, ← hstream]
  simp [singleBytes, ← flatMap_def]

theorem relayFrom_head {initial : Bytes} {n : Nat} (hhead : headerEnd initial = some n)
    (reads : List Bytes) :
    relayFrom url target forwardedProto [] (initial :: reads) =
      rewriteChunk url target forwardedProto initial ++
        reads.flatMap (rewriteChunk url target forwardedProto) := by
  rw [relayFrom, nil_append, hhead]
  rfl

/-- If some head behind the first one changes, then it matters whether a read begins there. -/
theorem oneRewrittenHead_of_same (hurl : target.urlProtocol.isSome = true)
    (hsame : ∀ initial reads initial' reads', ClientReads stream initial reads →
      ClientReads stream initial' reads' →
      clientToTarget url target forwardedProto initial reads =
        clientToTarget url target forwardedProto initial' reads') :
    OneRewrittenHead url target forwardedProto stream := by
  intro n hhead start headEnd hsecond hfits
  rw [drop_drop] at hsecond ⊢
  obtain ⟨a, ha⟩ : ∃ a, n + 4 + start = a := ⟨_, rfl⟩
  rw [ha] at hsecond ⊢
  have hcut : n + 4 ≤ (stream.take a).length := by
    have hlen := headerEnd_le hhead
    rw [length_take]
    omega
  have hfirst : ∀ m, a ≤ m → headerEnd (stream.take m) = some n := fun m hm =>
    (headerEnd_take stream m n).mpr ⟨hhead, by omega⟩
  have htake : stream.take (a + (headEnd + 4)) =
      stream.take a ++ (stream.drop a).take (headEnd + 4) := take_add
  have hlong := headerEnd_le hsecond
  have hsplit := hsame (stream.take (a + (headEnd + 4)))
    (singleBytes (stream.drop (a + (headEnd + 4)))) (stream.take a)
    ((stream.drop a).take (headEnd + 4) :: singleBytes (stream.drop (a + (headEnd + 4)))) ?_ ?_
  · rw [clientToTarget_eq hurl, clientToTarget_eq hurl, relayFrom_head (hfirst _ (by omega)),
      relayFrom_head (hfirst a (Nat.le_refl a)), flatMap_cons, flatMap_singleBytes,
      rewriteChunk_eq_append url target forwardedProto (hfirst _ (Nat.le_add_right a _)),
      rewriteChunk_eq_append url target forwardedProto (hfirst a (Nat.le_refl a)),
      take_take, take_take, Nat.min_eq_left (by omega), Nat.min_eq_left (by omega),
      htake, drop_append_of_le_length hcut] at hsplit
    simp only [append_assoc, append_cancel_left_eq, append_cancel_right_eq] at hsplit
    exact hsplit.symm
  · exact clientReads_concat [] (by simp) nofun
  · refine clientReads_concat [(stream.drop a).take (headEnd + 4)] ?_ ?_
    · rw [flatten_singleton, ← htake, take_append_drop]
    · intro chunk hchunk
      rw [mem_singleton.mp hchunk]
      have hlength : ((stream.drop a).take (headEnd + 4)).length = headEnd + 4 := by
        rw [length_take]
        omega
      exact ⟨fun hnil => by simp [hnil] at hlength, by omega⟩

/-- **When chunking does not matter.**  All ways of reading a stream lead to the same
bytes exactly when rewriting changes no head that starts behind the first one, at any
byte.  What is written is then the stream with its first head rewritten. -/
theorem relay_chunking_iff (hurl : target.urlProtocol.isSome = true) :
    (∀ initial reads initial' reads', ClientReads stream initial reads →
      ClientReads stream initial' reads' →
      clientToTarget url target forwardedProto initial reads =
        clientToTarget url target forwardedProto initial' reads') ↔
      OneRewrittenHead url target forwardedProto stream := by
  refine ⟨oneRewrittenHead_of_same hurl, fun h => ?_⟩
  have hwritten : ∀ initial reads, ClientReads stream initial reads →
      clientToTarget url target forwardedProto initial reads =
        rewriteChunk url target forwardedProto stream := by
    intro initial reads hreads
    rw [clientToTarget_eq hurl]
    exact relayFrom_eq h (initial :: reads) [] hreads.stream_eq rfl hreads.fits
  intro initial reads initial' reads' hreads hreads'
  rw [hwritten initial reads hreads, hwritten initial' reads' hreads']

end

/-! ### A body that starts like a request -/

def urlTarget : ProxyTarget where
  host := "backend".toList
  tcp := some 80
  urlProtocol := some "http".toList

/-- The head of an upload whose body is itself a request. -/
def uploadHead : Bytes := toUtf8 "POST / HTTP/1.1\r\nHost: proxy\r\n\r\n".toList

def uploadBody : Bytes := toUtf8 "GET / HTTP/1.1\r\n\r\n".toList

/-- The body reaches the target as it was sent, or with headers added to it. -/
theorem relay_splits_differ :
    ¬ ∀ (url : UrlParser) (target : ProxyTarget) (forwardedProto : Text) (stream : Bytes),
      target.urlProtocol.isSome = true →
      ∀ initial reads initial' reads', ClientReads stream initial reads →
        ClientReads stream initial' reads' →
        clientToTarget url target forwardedProto initial reads =
          clientToTarget url target forwardedProto initial' reads' := by
  intro hall
  have hsame := hall noUrl urlTarget "http".toList (uploadHead ++ uploadBody) rfl
    (uploadHead ++ uploadBody) [] uploadHead [uploadBody] ⟨by simp, nofun, nofun⟩
    ⟨by simp, by simp [uploadBody, toUtf8], by decide +kernel⟩
  exact absurd hsame (by decide +kernel)

/-- A request without a second blank line, in the initial payload or read later. -/
theorem relay_chunking_iff_upload :
    clientToTarget noUrl urlTarget "http".toList uploadHead [] =
      clientToTarget noUrl urlTarget "http".toList [] [uploadHead] := by
  have hone : OneRewrittenHead noUrl urlTarget "http".toList uploadHead := by
    intro n hhead start headEnd hsecond
    have hlength : headerEnd uploadHead = some 28 := by decide +kernel
    rw [hlength] at hhead
    cases hhead
    have hnone : uploadHead.drop (28 + 4) = [] := by decide +kernel
    rw [hnone, drop_nil] at hsecond
    cases hsecond
  exact (relay_chunking_iff rfl).mpr hone _ _ _ _ ⟨by simp, nofun, nofun⟩
    ⟨by simp, by simp [uploadHead, toUtf8], by decide +kernel⟩

end FerrumProxy
