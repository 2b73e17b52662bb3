import FerrumProxy.ByteStreams

/-!
# Programs of exact reads

A `Reader` is a routine that takes what it needs from a stream by exact reads, each of a length that
may depend on what was read before.  It is run in three ways: it blocks until it has what it wants
(`pull`), or it waits for events and puts back what they bring too much (`listen`), or loses it
(`hear`).
-/

namespace Wire

open Option

variable {α β : Type}

/-- Read exactly `count` entries, or fail at the end of the stream. -/
def readExact : Nat → List (List α) → Option (List α × List (List α))
  | 0, segments => some ([], segments)
  | _ + 1, [] => none
  | count + 1, s :: rest =>
    if count + 1 ≤ s.length then some (readSegment (count + 1) (s :: rest))
    else (readExact (count + 1 - s.length) rest).map (fun p => (s ++ p.1, p.2))

variable {segments : List (List α)} {count : Nat} {value : β} {bytes : List α}

open List

/-- A split of the empty stream. -/
theorem eq_nil_of_flatten (hne : ∀ s ∈ segments, s ≠ []) (h : segments.flatten = []) :
    segments = [] := by
  cases segments with
  | nil => rfl
  | cons s rest =>
    rw [flatten_cons] at h
    exact absurd (append_eq_nil_iff.mp h).1 (hne s mem_cons_self)

/-- Enough bytes are read on every split. -/
theorem readExact_of_le (hne : ∀ s ∈ segments, s ≠ []) (h : count ≤ segments.flatten.length) :
    ∃ rest, readExact count segments = some (segments.flatten.take count, rest) ∧
      rest.flatten = segments.flatten.drop count ∧ ∀ s ∈ rest, s ≠ [] := by
  induction segments generalizing count with
  | nil =>
    have hzero : count = 0 := by simpa using h
    subst hzero
    exact ⟨[], rfl, rfl, hne⟩
  | cons s rest ih =>
    cases count with
    | zero => exact ⟨s :: rest, rfl, rfl, hne⟩
    | succ count =>
      rw [readExact]
      by_cases hfits : count + 1 ≤ s.length
      · rw [if_pos hfits]
        have hsplit := readSegment_flatten (count + 1) (s :: rest)
        have hlen : (readSegment (count + 1) (s :: rest)).1.length = count + 1 :=
          length_take_of_le hfits
        refine ⟨(readSegment (count + 1) (s :: rest)).2, ?_, ?_, readSegment_nonempty hne⟩
        · rw [← hsplit, take_left' hlen]
        · rw [← hsplit, drop_left' hlen]
      · rw [if_neg hfits]
        rw [flatten_cons, length_append] at h
        obtain ⟨last, hread, hlast, hlastNe⟩ :=
          ih (fun t ht => hne t (mem_cons_of_mem s ht))
            (show count + 1 - s.length ≤ rest.flatten.length by omega)
        have hall : s.take (count + 1) = s := take_of_length_le (by omega)
        have hnone : s.drop (count + 1) = [] := drop_of_length_le (by omega)
        refine ⟨last, ?_, ?_, hlastNe⟩
        · rw [hread, flatten_cons, take_append, hall]
          rfl
        · rw [hlast, flatten_cons, drop_append, hnone, nil_append]

/-- Too few bytes are an error. -/
theorem readExact_of_lt (h : segments.flatten.length < count) :
    readExact count segments = none := by
  induction segments generalizing count with
  | nil =>
    cases count with
    | zero => cases h
    | succ count => rfl
  | cons s rest ih =>
    rw [flatten_cons, length_append] at h
    cases count with
    | zero => cases h
    | succ count =>
      rw [readExact, if_neg (by omega), ih (by omega)]
      rfl

/-! ## Routines -/

/-- A routine that reads from a stream of `α` and returns a `β`, or gives up. -/
inductive Reader (α β : Type) where
  | done (value : β)
  | fail
  | exact (count : Nat) (next : List α → Reader α β)

namespace Reader

/-- The routine on a whole stream: its result and the rest. -/
def parse : Reader α β → List α → Option (β × List α)
  | .done value, stream => some (value, stream)
  | .fail, _ => none
  | .exact count next, stream =>
    if count ≤ stream.length then (next (stream.take count)).parse (stream.drop count) else none

/-- The routine with blocking reads. -/
def pull : Reader α β → List (List α) → Option (β × List (List α))
  | .done value, segments => some (value, segments)
  | .fail, _ => none
  | .exact count next, segments =>
    match readExact count segments with
    | some (bytes, rest) => (next bytes).pull rest
    | none => none

/-- On every split the routine reads what it reads of the stream. -/
theorem pull_of_parse {reader : Reader α β} {suffix : List α} (hne : ∀ s ∈ segments, s ≠ [])
    (h : reader.parse segments.flatten = some (value, suffix)) :
    ∃ rest, reader.pull segments = some (value, rest) ∧ rest.flatten = suffix ∧
      ∀ s ∈ rest, s ≠ [] := by
  induction reader generalizing segments with
  | done result =>
    cases h
    exact ⟨segments, rfl, rfl, hne⟩
  | fail => cases h
  | exact count next ih =>
    rw [parse] at h
    obtain ⟨hcount, hnext⟩ := ite_none_right_eq_some.mp h
    obtain ⟨rest, hread, hrest, hrestNe⟩ := readExact_of_le hne hcount
    rw [← hrest] at hnext
    rw [pull, hread]
    exact ih _ hrestNe hnext

theorem pull_of_parse_none {reader : Reader α β} (hne : ∀ s ∈ segments, s ≠ [])
    (h : reader.parse segments.flatten = none) : reader.pull segments = none := by
  induction reader generalizing segments with
  | done result => cases h
  | fail => rfl
  | exact count next ih =>
    rw [parse] at h
    rw [pull]
    by_cases hcount : count ≤ segments.flatten.length
    · rw [if_pos hcount] at h
      obtain ⟨rest, hread, hrest, hrestNe⟩ := readExact_of_le hne hcount
      rw [← hrest] at h
      rw [hread]
      exact ih _ hrestNe h
    · rw [readExact_of_lt (by omega)]

/-- The routine in a loop, until it fails: at most `rounds` results. -/
def pullAll (reader : Reader α β) : Nat → List (List α) → List β × List (List α)
  | 0, segments => ([], segments)
  | rounds + 1, segments =>
    match reader.pull segments with
    | none => ([], segments)
    | some (value, rest) =>
      let (values, last) := pullAll reader rounds rest
      (value :: values, last)

/-- **Encodings in sequence.**  A loop with blocking reads returns what was encoded, on every
split, with nothing left over. -/
theorem pullAll_encoded {ξ : Type} {reader : Reader α β} {encode : ξ → List α} {view : ξ → β}
    {items : List ξ}
    (hlaw : ∀ item ∈ items, ∀ suffix,
      reader.parse (encode item ++ suffix) = some (view item, suffix))
    (hend : reader.parse [] = none) (hsplit : IsSplit (items.flatMap encode) segments)
    {rounds : Nat} (hrounds : items.length < rounds) :
    reader.pullAll rounds segments = (items.map view, []) := by
  obtain ⟨hflat, hne⟩ := hsplit
  induction items generalizing segments rounds with
  | nil =>
    have hnil := eq_nil_of_flatten hne hflat
    subst hnil
    cases rounds with
    | zero => rfl
    | succ rounds => rw [pullAll, pull_of_parse_none hne (by simpa using hend), map_nil]
  | cons item items ih =>
    cases rounds with
    | zero => cases hrounds
    | succ rounds =>
      have hparse := hlaw item mem_cons_self (items.flatMap encode)
      rw [← flatMap_cons, ← hflat] at hparse
      obtain ⟨rest, hpull, hrest, hrestNe⟩ := pull_of_parse hne hparse
      have hlater := ih (fun other hother => hlaw other (mem_cons_of_mem item hother))
        (by simpa using hrounds) hrest hrestNe
      rw [pullAll, hpull]
      simp only [hlater, map_cons]

/-! ## Events -/

/-- How far a routine has come with what has arrived. -/
inductive Progress (α β : Type) where
  /-- It has returned and put the rest back. -/
  | finished (value : β) (extra : List α)
  | failed
  /-- It waits for an event, with what it has gathered for the read it is in. -/
  | waiting (reader : Reader α β) (buffer : List α)

/-- The routine on an event that brings `buffer`, which may hold what it had gathered before.
With nothing put back there is no event, and even a read of length zero waits for one. -/
def listen : Reader α β → List α → Progress α β
  | .done value, extra => .finished value extra
  | .fail, _ => .failed
  | .exact count next, buffer =>
    if buffer.isEmpty || decide (buffer.length < count) then .waiting (.exact count next) buffer
    else (next (buffer.take count)).listen (buffer.drop count)

/-- More bytes in the same event are as good as bytes in the next one. -/
theorem listen_append (reader : Reader α β) (buffer : List α) {more : List α} (hmore : more ≠ []) :
    reader.listen (buffer ++ more) =
      match reader.listen buffer with
      | .finished value extra => .finished value (extra ++ more)
      | .failed => .failed
      | .waiting reader buffer => reader.listen (buffer ++ more) := by
  induction reader generalizing buffer with
  | done | fail => rfl
  | exact count next ih =>
    by_cases hwait : (buffer.isEmpty || decide (buffer.length < count)) = true
    · rw [show (Reader.exact count next).listen buffer = .waiting (.exact count next) buffer by
        rw [listen, if_pos hwait]]
    · have hcount : count ≤ buffer.length := by
        simp only [Bool.or_eq_true, decide_eq_true_eq, not_or] at hwait
        omega
      have hgo :
          ¬ ((buffer ++ more).isEmpty || decide ((buffer ++ more).length < count)) = true := by
        simp [hmore]
        omega
      rw [listen, if_neg hgo, listen, if_neg hwait, take_append_of_le_length hcount,
        drop_append_of_le_length hcount]
      exact ih _ _

variable {next : List α → Reader α β}

/-- A read of what stands at the front. -/
theorem parse_exact (hlen : bytes.length = count) (rest : List α) :
    (Reader.exact count next).parse (bytes ++ rest) = (next bytes).parse rest := by
  rw [parse, if_pos (by rw [length_append]; omega), take_left' hlen, drop_left' hlen]

/-- An event that brings what is read. -/
theorem listen_exact (hlen : bytes.length = count) {rest : List α} (hne : bytes ++ rest ≠ []) :
    (Reader.exact count next).listen (bytes ++ rest) = (next bytes).listen rest := by
  have hgo : ¬ ((bytes ++ rest).isEmpty || decide ((bytes ++ rest).length < count)) = true := by
    rw [isEmpty_eq_false_iff.mpr hne, length_append]
    simp
    omega
  rw [listen, if_neg hgo, take_left' hlen, drop_left' hlen]

/-- A routine in a loop, between two events. -/
structure Listener (α β : Type) where
  reader : Reader α β
  buffer : List α

/-- The routine `loop` over and over, on an event that brings `buffer` to a run of it that has got
to `reader`: the results, and where it waits.  None if `rounds` results are not all, or if it
fails. -/
def serve (loop : Reader α β) : Nat → Reader α β → List α → Option (List β × Listener α β)
  | 0, _, _ => none
  | rounds + 1, reader, buffer =>
    match reader.listen buffer with
    | .finished value extra =>
      (serve loop rounds loop extra).map (fun p => (value :: p.1, p.2))
    | .failed => none
    | .waiting reader buffer => some ([], ⟨reader, buffer⟩)

variable {loop reader : Reader α β} {buffer : List α} {values more : List β}
  {listener final : Listener α β} {rounds extraRounds : Nat}

/-- More rounds change nothing. -/
theorem serve_mono (h : serve loop rounds reader buffer = some (values, listener))
    (extraRounds : Nat) :
    serve loop (rounds + extraRounds) reader buffer = some (values, listener) := by
  induction rounds generalizing reader buffer values with
  | zero => cases h
  | succ rounds ih =>
    rw [Nat.add_right_comm, serve]
    rw [serve] at h
    split at h
    · rename_i value extra hlisten
      obtain ⟨⟨later, last⟩, hlater, heq⟩ := map_eq_some_iff.mp h
      cases heq
      rw [ih hlater]
      rfl
    · cases h
    · exact h

/-- **Events can be joined.** -/
theorem serve_append {next : List α} (hnext : next ≠ [])
    (hfirst : serve loop rounds reader buffer = some (values, listener))
    (hsecond :
      serve loop extraRounds listener.reader (listener.buffer ++ next) = some (more, final)) :
    serve loop (rounds + extraRounds) reader (buffer ++ next) = some (values ++ more, final) := by
  induction rounds generalizing reader buffer values with
  | zero => cases hfirst
  | succ rounds ih =>
    rw [serve] at hfirst
    split at hfirst
    · rename_i value extra hlisten
      obtain ⟨⟨later, last⟩, hlater, heq⟩ := map_eq_some_iff.mp hfirst
      cases heq
      rw [Nat.add_right_comm, serve, listen_append reader buffer hnext, hlisten]
      simp only
      rw [ih hlater]
      rfl
    · cases hfirst
    · rename_i waiting held hlisten
      cases hfirst
      have hsame : reader.listen (buffer ++ next) = waiting.listen (held ++ next) := by
        rw [listen_append reader buffer hnext, hlisten]
      cases extraRounds with
      | zero => cases hsecond
      | succ extraRounds =>
        have hmono := serve_mono hsecond (rounds + 1)
        have hrounds : rounds + 1 + (extraRounds + 1) = extraRounds + 1 + (rounds + 1) := by omega
        rw [hrounds, ← Nat.add_assoc, serve, hsame]
        rw [← Nat.add_assoc, serve] at hmono
        exact hmono

/-- The rounds do not matter. -/
theorem serve_unique {first second : List β × Listener α β}
    (hfirst : serve loop rounds reader buffer = some first)
    (hsecond : serve loop extraRounds reader buffer = some second) : first = second := by
  have hlong := serve_mono hfirst extraRounds
  have hlong' := serve_mono hsecond rounds
  rw [Nat.add_comm] at hlong'
  exact some.inj (hlong.symm.trans hlong')

/-- The routine never fails, whatever it reads. -/
def NeverFails : Reader α β → Prop
  | .done _ => True
  | .fail => False
  | .exact _ next => ∀ bytes, (next bytes).NeverFails

/-- A routine that never fails finishes or waits. -/
theorem NeverFails.listen (h : reader.NeverFails) (buffer : List α) :
    (∃ value extra, reader.listen buffer = .finished value extra ∧ extra.length ≤ buffer.length) ∨
      ∃ waiting held, reader.listen buffer = .waiting waiting held ∧ waiting.NeverFails := by
  induction reader generalizing buffer with
  | done value => exact .inl ⟨value, buffer, rfl, le_rfl⟩
  | fail => exact h.elim
  | exact count next ih =>
    rw [Reader.listen]
    split
    · exact .inr ⟨_, _, rfl, h⟩
    · rcases ih _ (h _) (buffer.drop count) with ⟨value, extra, hdone, hlen⟩ | hwaiting
      · rw [length_drop] at hlen
        exact .inl ⟨value, extra, hdone, by omega⟩
      · exact .inr hwaiting

/-- A routine that begins with a read of something. -/
structure IsLoop (loop : Reader α β) : Prop where
  neverFails : loop.NeverFails
  begins : ∃ count next, loop = .exact (count + 1) next

/-- Every run of the loop takes something. -/
theorem IsLoop.shorter (h : IsLoop loop) {extra : List α}
    (hlisten : loop.listen buffer = .finished value extra) : extra.length < buffer.length := by
  obtain ⟨hnever, count, next, rfl⟩ := h
  rw [Reader.listen] at hlisten
  split at hlisten
  · cases hlisten
  · rename_i hgo
    simp only [Bool.or_eq_true, decide_eq_true_eq, not_or] at hgo
    rcases NeverFails.listen (hnever _) (buffer.drop (count + 1)) with
      ⟨_, _, hdone, hlen⟩ | ⟨_, _, hwaiting, _⟩
    · rw [hdone] at hlisten
      cases hlisten
      rw [length_drop] at hlen
      omega
    · rw [hwaiting] at hlisten
      cases hlisten

/-- Enough rounds for the bytes that there are. -/
theorem IsLoop.exists_serve (h : IsLoop loop) (hreader : reader.NeverFails) (buffer : List α) :
    ∃ values listener, serve loop (buffer.length + 2) reader buffer = some (values, listener) ∧
      listener.reader.NeverFails := by
  suffices hrounds : ∀ rounds reader (buffer : List α), reader.NeverFails →
      buffer.length + 2 ≤ rounds ∨ (reader = loop ∧ buffer.length < rounds) →
      ∃ values listener, serve loop rounds reader buffer = some (values, listener) ∧
        listener.reader.NeverFails from hrounds _ reader buffer hreader (.inl le_rfl)
  intro rounds
  induction rounds with
  | zero =>
    intro reader buffer _ hlen
    omega
  | succ rounds ih =>
    intro reader buffer hreader hlen
    rw [serve]
    rcases hreader.listen buffer with
      ⟨value, extra, hdone, hextra⟩ | ⟨waiting, held, hwaiting, hnever⟩
    · -- a run of the loop itself takes a byte for every result
      have hless : extra.length < rounds := by
        rcases hlen with hlong | ⟨rfl, hlong⟩
        · omega
        · have hshorter := h.shorter hdone
          omega
      obtain ⟨values, listener, hserve, hnever⟩ :=
        ih loop extra h.neverFails (.inr ⟨rfl, hless⟩)
      exact ⟨value :: values, listener, by rw [hdone]; simp [hserve], hnever⟩
    · exact ⟨[], ⟨waiting, held⟩, by rw [hwaiting], hnever⟩

/-- One event for a routine in a loop that has returned some results. -/
def receive (loop : Reader α β) (state : List β × Listener α β) (chunk : List α) :
    Option (List β × Listener α β) :=
  let buffer := state.2.buffer ++ chunk
  (serve loop (buffer.length + 2) state.2.reader buffer).map (fun p => (state.1 ++ p.1, p.2))

/-- The events since the loop was started. -/
def receiveAll (loop : Reader α β) (chunks : List (List α)) : Option (List β × Listener α β) :=
  chunks.foldlM (receive loop) ([], ⟨loop, []⟩)

/-- **Events do not matter.**  After any events the loop is where one event with all their bytes
would have brought it. -/
theorem IsLoop.receiveAll_eq (h : IsLoop loop) {chunks : List (List α)}
    (hne : ∀ chunk ∈ chunks, chunk ≠ [])
    (hserve : serve loop rounds loop chunks.flatten = some (values, listener)) :
    receiveAll loop chunks = some (values, listener) := by
  have hexists : ∃ rounds result, serve loop rounds loop chunks.flatten = some result ∧
      receiveAll loop chunks = some result ∧ result.2.reader.NeverFails := by
    clear hserve
    induction chunks using reverseRecOn with
    | nil =>
      obtain ⟨hnever, count, next, rfl⟩ := h
      exact ⟨1, _, rfl, rfl, hnever⟩
    | append_singleton chunks chunk ih =>
      obtain ⟨rounds, ⟨values, listener⟩, hserve, hreceive, hnever⟩ :=
        ih (fun other hother => hne other (mem_append_left [chunk] hother))
      obtain ⟨more, final, hmore, hfinal⟩ := h.exists_serve hnever (listener.buffer ++ chunk)
      have hjoined := serve_append (hne chunk (by simp)) hserve hmore
      refine ⟨rounds + ((listener.buffer ++ chunk).length + 2), (values ++ more, final), ?_, ?_,
        hfinal⟩
      · rw [flatten_append, flatten_singleton]
        exact hjoined
      · rw [receiveAll] at hreceive ⊢
        have hlast : receive loop (values, listener) chunk = some (values ++ more, final) := by
          simp only [receive, hmore, map_some]
        rw [foldlM_append, hreceive]
        simp [hlast]
  obtain ⟨_, result, hresult, hreceive, _⟩ := hexists
  rw [hreceive, serve_unique hresult hserve]

/-! ## Events whose rest is lost -/

/-- A run of the loop after a read: what it returns, and where it reads next. -/
def goOn (loop : Reader α β) : Reader α β → Option (List β × Reader α β)
  | .done value => some ([value], loop)
  | .fail => none
  | .exact count next => some ([], .exact count next)

/-- One event for a routine that does not get back what an event brings too much: the next read
starts with nothing. -/
def hear (loop : Reader α β) (state : List β × Listener α β) (chunk : List α) :
    Option (List β × Listener α β) :=
  match state.2.reader with
  | .exact count next =>
    let buffer := state.2.buffer ++ chunk
    if buffer.length < count then some (state.1, ⟨.exact count next, buffer⟩)
    else (goOn loop (next (buffer.take count))).map (fun p => (state.1 ++ p.1, ⟨p.2, []⟩))
  | _ => none

/-- The events since the loop was started. -/
def hearAll (loop : Reader α β) (chunks : List (List α)) : Option (List β × Listener α β) :=
  chunks.foldlM (hear loop) ([], ⟨loop, []⟩)

/-- The fields that a run of the loop reads, from `reader` on, to return the values. -/
inductive Follows (loop : Reader α β) : Reader α β → List (List α) → List β → Prop
  | stop : Follows loop loop [] []
  | read {count : Nat} {next : List α → Reader α β} {field : List α} {fields : List (List α)}
      {given values : List β} {reader : Reader α β} (hlen : field.length = count)
      (hpos : field ≠ []) (hgo : goOn loop (next field) = some (given, reader))
      (later : Follows loop reader fields values) :
      Follows loop (.exact count next) (field :: fields) (given ++ values)

/-- Whatever is read, a value is returned for at least so many bytes; `read` of them have been
read. -/
def AtLeast (least : β → Nat) : Nat → Reader α β → Prop
  | read, .done value => least value ≤ read
  | _, .fail => True
  | read, .exact count next =>
    ∀ bytes, bytes.length = count → AtLeast least (read + count) (next bytes)

/-- Every field ends with an event; `buffer` is what has been gathered of the first one. -/
def EndWithEvents (buffer : List α) (fields chunks : List (List α)) : Prop :=
  ∀ k < fields.length, ∃ n, buffer ++ (chunks.take n).flatten = (fields.take (k + 1)).flatten

section Heard

variable {loop reader : Reader α β} {least : β → Nat} {read : Nat} {buffer chunk field : List α}
  {fields chunks : List (List α)} {before given values : List β}

/-- Going on spends what the values need. -/
theorem AtLeast.goOn (hloop : AtLeast least 0 loop) (h : AtLeast least read reader)
    {next : Reader α β} (hgo : loop.goOn reader = some (given, next)) :
    ∃ left, AtLeast least left next ∧ (given.map least).sum + left ≤ read := by
  cases reader with
  | done value =>
    cases hgo
    have hvalue : least value ≤ read := h
    exact ⟨0, hloop, by simpa using hvalue⟩
  | fail => cases hgo
  | exact count next =>
    cases hgo
    exact ⟨read, h, by simp⟩

/-- Nothing is returned that has not been received. -/
theorem AtLeast.sum_le {after : List β} {final : Listener α β} (hloop : AtLeast least 0 loop)
    (h : AtLeast least read reader)
    (hrun : chunks.foldlM (hear loop) (before, ⟨reader, buffer⟩) = some (after, final)) :
    (after.map least).sum ≤
      (before.map least).sum + read + (buffer.length + chunks.flatten.length) := by
  induction chunks generalizing reader buffer before read with
  | nil =>
    cases hrun
    omega
  | cons chunk chunks ih =>
    rw [foldlM_cons, bind_eq_bind, bind_eq_some_iff] at hrun
    obtain ⟨state, hstep, hrun⟩ := hrun
    rw [flatten_cons, length_append]
    cases reader with
    | done | fail => cases hstep
    | exact count next =>
      simp only [hear] at hstep
      split at hstep
      · cases hstep
        have hsum := ih h hrun
        rw [length_append] at hsum
        omega
      · rename_i hlong
        obtain ⟨⟨given, reader⟩, hgo, rfl⟩ := map_eq_some_iff.mp hstep
        have htake : ((buffer ++ chunk).take count).length = count := by
          rw [length_take]
          omega
        obtain ⟨left, hleft, hgiven⟩ := hloop.goOn (h _ htake) hgo
        have hsum := ih hleft hrun
        simp only [map_append, sum_append, length_nil] at hsum
        rw [length_append] at hlong
        omega

/-- An event within the first field. -/
theorem endWithEvents_cons (hshort : buffer.length < field.length) :
    EndWithEvents buffer (field :: fields) (chunk :: chunks) ↔
      EndWithEvents (buffer ++ chunk) (field :: fields) chunks := by
  refine forall₂_congr (fun k _ => ⟨fun h => ?_, fun h => ?_⟩)
  · obtain ⟨n, hn⟩ := h
    cases n with
    | zero =>
      have hlen := congrArg length hn
      simp at hlen
      omega
    | succ n => exact ⟨n, by simpa using hn⟩
  · obtain ⟨n, hn⟩ := h
    exact ⟨n + 1, by simpa using hn⟩

/-- The first field is complete. -/
theorem endWithEvents_next :
    EndWithEvents field (field :: fields) chunks ↔ EndWithEvents [] fields chunks := by
  constructor
  · intro h k hk
    obtain ⟨n, hn⟩ := h (k + 1) (Nat.succ_lt_succ hk)
    exact ⟨n, by simpa using hn⟩
  · intro h k hk
    cases k with
    | zero => exact ⟨0, by simp⟩
    | succ k =>
      obtain ⟨n, hn⟩ := h k (Nat.lt_of_succ_lt_succ hk)
      exact ⟨n, by simpa using hn⟩

/-- **Fields that end with events.**  A loop that loses what an event brings too much returns the
values of the fields exactly when every field ends with an event. -/
theorem hear_iff (hloop : AtLeast least 0 loop) (hfollows : Follows loop reader fields values)
    (hleast : AtLeast least read reader)
    (hfull : read + fields.flatten.length ≤ (values.map least).sum)
    (hflat : buffer ++ chunks.flatten = fields.flatten) (hne : ∀ chunk ∈ chunks, chunk ≠ [])
    (hshort : ∀ field, fields.head? = some field → buffer.length < field.length) :
    chunks.foldlM (hear loop) (before, ⟨reader, buffer⟩) = some (before ++ values, ⟨loop, []⟩) ↔
      EndWithEvents buffer fields chunks := by
  induction chunks generalizing reader fields values read buffer before with
  | nil =>
    cases hfollows with
    | stop =>
      obtain rfl : buffer = [] := by simpa using hflat
      refine iff_of_true (by simp) (fun k hk => ?_)
      cases hk
    | read hlen hpos hgo later =>
      have hlong := congrArg length hflat
      simp at hlong hshort
      omega
  | cons chunk chunks ih =>
    have hrest : ∀ other ∈ chunks, other ≠ [] := fun other hother =>
      hne other (mem_cons_of_mem chunk hother)
    cases hfollows with
    | stop =>
      have hchunk := hne chunk mem_cons_self
      simp [hchunk] at hflat
    | @read count next field fields given values reader hlen hpos hgo later =>
      have hshort := hshort field rfl
      rw [endWithEvents_cons hshort, foldlM_cons, bind_eq_bind, hear]
      rw [flatten_cons, ← append_assoc, flatten_cons] at hflat
      have hlength := congrArg length hflat
      rw [length_append, @length_append _ field] at hlength
      rw [map_append, sum_append, flatten_cons, length_append] at hfull
      dsimp only
      rcases Nat.lt_trichotomy (buffer ++ chunk).length field.length with hless | hsame | hmore
      · rw [if_pos (hlen ▸ hless), bind_some]
        refine ih (.read hlen hpos hgo later) hleast ?_ hflat hrest (fun first hfirst => ?_)
        · rwa [map_append, sum_append, flatten_cons, length_append]
        · cases hfirst
          exact hless
      · obtain ⟨hfield, hflat⟩ := append_inj hflat hsame
        obtain ⟨left, hleft, hsum⟩ := hloop.goOn (hleast field hlen) hgo
        rw [if_neg (by omega), hfield, ← hlen, take_length, hgo, map_some, bind_some,
          endWithEvents_next, ← append_assoc]
        refine ih later hleft (by omega) hflat hrest (fun first hfirst => ?_)
        cases later with
        | stop => cases hfirst
        | read _ hpos _ _ =>
          cases hfirst
          exact length_pos_of_ne_nil hpos
      · -- what is lost is missing for the values
        have hfield := congrArg (take count) hflat
        rw [take_append_of_le_length (by omega), take_left' hlen] at hfield
        refine iff_of_false (fun hrun => ?_) (fun hends => ?_)
        · rw [if_neg (by omega), hfield, hgo, map_some, bind_some] at hrun
          obtain ⟨left, hleft, hsum⟩ := hloop.goOn (hleast field hlen) hgo
          have hreturned := hloop.sum_le hleft hrun
          simp only [map_append, sum_append, length_nil] at hreturned
          omega
        · obtain ⟨n, hn⟩ := hends 0 (Nat.succ_pos _)
          have hshorter := congrArg length hn
          simp at hshorter hmore
          omega

end Heard

end Reader

end Wire
